import SchemaBindings.Model.Build
import SchemaBindings.Proofs.Attempt
import SchemaBindings.Proofs.Schema.Declarations

namespace SchemaBindings

open Sdl Model Attempt

namespace Schema

def describe (s : Schema) (d : Declaration) : String :=
  match d.item with
  | .type _ =>
    if s.isRoot d.owner.name then s!"root operation type `{d.owner.name}`"
    else s!"{d.owner.kind.display} `{d.owner.name}`"
  | .field f => s!"field `{d.owner.name}.{f.name.text}`"
  | .inputField f => s!"input field `{d.owner.name}.{f.name.text}`"
  | .value v => s!"enum value `{d.owner.name}.{v.name.text}`"

def refusal (s : Schema) (d : Declaration) : BuildError :=
  .unsupportedMarker .union (s.describe d) (d.item.nameSpan.inFile d.file)

/-- Only object types that offer no operation can stand for unions. -/
def CanWrap (s : Schema) (t : SchemaType) : Prop :=
  t.kind = .object ∧ ¬ s.isRoot t.name

instance (s : Schema) (t : SchemaType) : Decidable (s.CanWrap t) :=
  inferInstanceAs (Decidable (_ ∧ _))

end Schema

namespace LoadedSchema

def isMarked (s : LoadedSchema) (t : SchemaType) : Bool :=
  s.markers.has t.file (s.schema.sources.file t.file) t.definition.start .union

/-- The types that a union marker is for. -/
def marked (s : LoadedSchema) : List SchemaType :=
  s.schema.types.filter s.isMarked

/-- What the types and members are checked against once all union markers on types are known. -/
def context (s : LoadedSchema) : Build.Context :=
  ⟨s, s.marked.map (·.name)⟩

end LoadedSchema

namespace Model.Build

def markFault? (s : Schema) (t : SchemaType) : Option BuildError :=
  if s.CanWrap t then none else some (s.refusal t.itself)

def fieldFaults (c : Context) (t : SchemaType) : List BuildError :=
  t.fields.filterMap fun p ↦ error? (field c t.name p.1 p.2)

def memberFaults (c : Context) (t : SchemaType) : List BuildError :=
  match t.kind with
  | .scalar | .union => []
  | .enum => t.values.zipIdx.filterMap fun p ↦ error? (enumValue c t.name p.2 p.1.1 p.1.2)
  | .object =>
    if c.wrappers.contains t.name then
      t.fields.filterMap fun p ↦ error? (wrapperMember c t.name p.1 p.2)
    else fieldFaults c t
  | .interface => fieldFaults c t
  | .inputObject => t.inputFields.filterMap fun p ↦ error? (inputField c t.name p.1 p.2)

def rootTypes (s : Schema) : List SchemaType :=
  Sdl.OperationKind.all.filterMap s.root?

/-- The marked types come first, then the members of all types, then what the operations offer. -/
def faults (s : LoadedSchema) : List BuildError :=
  s.marked.filterMap (markFault? s.schema) ++
    ((s.schema.types.filter (isDeclared s.context)).flatMap (memberFaults s.context) ++
      (rootTypes s.schema).flatMap (fieldFaults s.context))

variable {c : Context} {s : LoadedSchema}

theorem error?_fields (c : Context) (t : SchemaType) :
    error? (fields c t) = (fieldFaults c t).head? := by
  rw [fields, error?_mapM, fieldFaults, List.head?_filterMap]

theorem error?_addDeclaration (c : Context) (m : Model) (t : SchemaType) :
    error? (addDeclaration c m t) = (memberFaults c t).head? := by
  have hrecord (status : Status) : error? (record c t status) = (fieldFaults c t).head? := by
    rw [record, error?_bind_pure, error?_fields]
  unfold addDeclaration memberFaults
  cases t.kind with
  | scalar => rfl
  | union => rfl
  | enum =>
    simp only [error?_bind_pure, error?_mapM, List.head?_filterMap]
  | object =>
    by_cases hw : c.wrappers.contains t.name
    · simp only [if_pos hw, error?_bind_pure, error?_mapM, List.head?_filterMap]
    · simp only [if_neg hw, error?_bind_pure, hrecord]
  | interface => simp only [error?_bind_pure, hrecord]
  | inputObject => simp only [error?_bind_pure, error?_mapM, List.head?_filterMap]

theorem error?_operations (c : Context) :
    error? (operations c) = ((rootTypes c.schema).flatMap (fieldFaults c)).head? := by
  have hoperation (kind : Sdl.OperationKind) (root : SchemaType) :
      error? (operation c kind root) = (fieldFaults c root).head? := by
    rw [operation, error?_bind_pure, error?_fields]
  have hroots : rootTypes c.schema = (Sdl.OperationKind.all.filterMap fun kind ↦
      (c.schema.root? kind).map fun root ↦ (kind, root)).map (·.2) := by
    rw [rootTypes, List.map_filterMap]
    simp only [Option.map_map, Function.comp_def, Option.map_id']
  rw [operations, error?_mapM, List.head?_flatMap, hroots, List.findSome?_map]
  refine congrArg (List.findSome? · _) (funext fun p ↦ ?_)
  exact hoperation p.1 p.2

def collectMark (s : Schema) (t : SchemaType) : Except BuildError String :=
  if s.isRoot t.name then .error (s.refusal t.itself)
  else if t.kind ≠ .object then .error (s.refusal t.itself)
  else .ok t.name

theorem describe_itself_of_isRoot {s : Schema} {t : SchemaType} (h : s.isRoot t.name = true) :
    s.describe t.itself = s!"root operation type `{t.name}`" :=
  if_pos h

theorem describe_itself_of_not_isRoot {s : Schema} {t : SchemaType}
    (h : ¬ s.isRoot t.name = true) : s.describe t.itself = s!"{t.kind.display} `{t.name}`" :=
  if_neg h

theorem wrappers_eq_mapM (s : LoadedSchema) :
    wrappers s = s.marked.mapM (collectMark s.schema) := by
  refine congrArg (List.mapM · s.marked) (funext fun t ↦ ?_)
  rw [collectMark, Schema.refusal]
  by_cases hroot : s.schema.isRoot t.name
  · rw [if_pos hroot, if_pos hroot, describe_itself_of_isRoot hroot]
    rfl
  · rw [if_neg hroot, if_neg hroot, describe_itself_of_not_isRoot hroot]
    rfl

theorem error?_collectMark (s : Schema) (t : SchemaType) :
    error? (collectMark s t) = markFault? s t := by
  rw [collectMark, markFault?]
  by_cases hroot : s.isRoot t.name
  · rw [if_pos hroot, if_neg fun h ↦ h.2 hroot]
    rfl
  · by_cases hkind : t.kind = .object
    · rw [if_neg hroot, if_neg fun h ↦ h hkind, if_pos ⟨hkind, hroot⟩]
      rfl
    · rw [if_neg hroot, if_pos hkind, if_neg fun h ↦ hkind h.1]
      rfl

theorem error?_wrappers (s : LoadedSchema) :
    error? (wrappers s) = (s.marked.filterMap (markFault? s.schema)).head? := by
  rw [wrappers_eq_mapM, error?_mapM, List.head?_filterMap]
  exact congrArg (List.findSome? · _) (funext fun t ↦ error?_collectMark _ t)

theorem wrappers_eq_ok (h : s.marked.filterMap (markFault? s.schema) = []) :
    wrappers s = .ok s.context.wrappers := by
  rw [wrappers_eq_mapM]
  refine mapM_eq_ok_map fun t ht ↦ ?_
  have hnone := List.filterMap_eq_nil_iff.mp h t ht
  rw [← error?_collectMark] at hnone
  unfold collectMark at hnone ⊢
  split
  next hroot => simp [hroot, error?] at hnone
  next hroot =>
    split
    next hkind => simp [hroot, hkind, error?] at hnone
    next => rfl

/-- What is left of the build once all declarations and operations are known. -/
def applyTables (s : Schema) (tables : Tables) (m : Model) : Except BuildError Model := do
  let m ← applyAliases tables m
  let m ← applyDefaults tables m
  tables.customInputs.forM fun row ↦ checkCustomInput s row.1
  return m

def declareAll (s : LoadedSchema) : Except BuildError Model :=
  (s.schema.types.filter (isDeclared s.context)).foldlM (addDeclaration s.context)
    (.empty (.signed (s.schema.sources.map fun f ↦ baseName f.name)))

theorem build_eq (h : s.marked.filterMap (markFault? s.schema) = []) (tables : Tables) :
    Model.build s tables = (declareAll s >>= fun m ↦ operations s.context >>= fun operations ↦
      applyTables s.schema tables { m with operations }) := by
  rw [Model.build, wrappers_eq_ok h]
  rfl

theorem error?_declareAll (s : LoadedSchema) :
    error? (declareAll s) = ((s.schema.types.filter (isDeclared s.context)).flatMap
      (memberFaults s.context)).head? := by
  rw [List.head?_flatMap]
  exact error?_foldlM (error?_addDeclaration s.context) _ _

/-- The build of a schema with faults ends in the first of them. -/
theorem build_eq_error {e : BuildError} (h : (faults s).head? = some e) (tables : Tables) :
    Model.build s tables = .error e := by
  rw [faults, List.head?_append, List.head?_append, ← error?_declareAll] at h
  rcases Option.or_eq_some_iff.mp h with hmark | ⟨hmark, h⟩
  · rw [← error?_wrappers, error?_eq_some_iff] at hmark
    rw [Model.build, hmark]
    rfl
  rw [build_eq (List.head?_eq_none_iff.mp hmark)]
  rcases Option.or_eq_some_iff.mp h with hmember | ⟨hmember, hoperation⟩
  · rw [error?_eq_some_iff] at hmember
    rw [hmember]
    rfl
  · obtain ⟨m, hm⟩ := (error?_eq_none_iff _).mp hmember
    have hos := (error?_eq_some_iff _ _).mp ((error?_operations s.context).trans hoperation)
    rw [hm, hos]
    rfl

theorem faults_eq_nil {tables : Tables} {m : Model} (h : Model.build s tables = .ok m) :
    faults s = [] := by
  cases hf : faults s with
  | nil => rfl
  | cons e es =>
    rw [build_eq_error (by rw [hf, List.head?_cons]) tables] at h
    cases h

end Model.Build

end SchemaBindings
