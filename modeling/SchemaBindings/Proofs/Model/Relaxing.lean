import SchemaBindings.Proofs.Model.Contexts

namespace SchemaBindings.Model

open Sdl Attempt

/-- The status stays, or what was not available everywhere now is. -/
def Status.RelaxesTo (s s' : Status) : Prop :=
  s' = s ∨ s = .future ∧ s' = .stable

instance (s s' : Status) : Decidable (s.RelaxesTo s') :=
  inferInstanceAs (Decidable (_ ∨ _))

structure Field.RelaxesTo (f f' : Field) : Prop where
  same : f' = { f with status := f'.status }
  status : f.status.RelaxesTo f'.status

structure EnumValue.RelaxesTo (v v' : EnumValue) : Prop where
  same : v' = { v with status := v'.status }
  status : v.status.RelaxesTo v'.status

structure EnumType.RelaxesTo (e e' : EnumType) : Prop where
  same : e' = { e with status := e'.status, values := e'.values }
  status : e.status.RelaxesTo e'.status
  values : List.Forall₂ EnumValue.RelaxesTo e.values e'.values

structure RecordType.RelaxesTo (r r' : RecordType) : Prop where
  same : r' = { r with status := r'.status, fields := r'.fields }
  status : r.status.RelaxesTo r'.status
  fields : List.Forall₂ Field.RelaxesTo r.fields r'.fields

structure InputType.RelaxesTo (i i' : InputType) : Prop where
  same : i' = { i with status := i'.status, fields := i'.fields }
  status : i.status.RelaxesTo i'.status
  fields : List.Forall₂ Field.RelaxesTo i.fields i'.fields

structure UnionMember.RelaxesTo (m m' : UnionMember) : Prop where
  same : m' = { m with status := m'.status }
  status : m.status.RelaxesTo m'.status

structure UnionType.RelaxesTo (u u' : UnionType) : Prop where
  same : u' = { u with status := u'.status, members := u'.members }
  status : u.status.RelaxesTo u'.status
  members : List.Forall₂ UnionMember.RelaxesTo u.members u'.members

structure ScalarType.RelaxesTo (t t' : ScalarType) : Prop where
  same : t' = { t with status := t'.status }
  status : t.status.RelaxesTo t'.status

structure OperationField.RelaxesTo (f f' : OperationField) : Prop where
  same : f' = { f with status := f'.status }
  status : f.status.RelaxesTo f'.status

structure Operation.RelaxesTo (o o' : Operation) : Prop where
  same : o' = { o with fields := o'.fields }
  fields : List.Forall₂ OperationField.RelaxesTo o.fields o'.fields

/-- The models are the same except that some statuses change from future to stable. -/
structure RelaxesTo (m m' : Model) : Prop where
  metadata : m'.metadata = m.metadata
  scalars : List.Forall₂ ScalarType.RelaxesTo m.scalars m'.scalars
  enums : List.Forall₂ EnumType.RelaxesTo m.enums m'.enums
  interfaces : List.Forall₂ RecordType.RelaxesTo m.interfaces m'.interfaces
  objects : List.Forall₂ RecordType.RelaxesTo m.objects m'.objects
  inputs : List.Forall₂ InputType.RelaxesTo m.inputs m'.inputs
  unions : List.Forall₂ UnionType.RelaxesTo m.unions m'.unions
  operations : List.Forall₂ Operation.RelaxesTo m.operations m'.operations
  platformDefaults : m'.platformDefaults = m.platformDefaults

theorem Status.relaxesTo_refl (s : Status) : s.RelaxesTo s :=
  .inl rfl

theorem relaxesTo_empty (metadata : Metadata) : (empty metadata).RelaxesTo (empty metadata) :=
  ⟨rfl, .nil, .nil, .nil, .nil, .nil, .nil, .nil, rfl⟩

theorem RecordType.RelaxesTo.name_eq {r r' : RecordType} (h : r.RelaxesTo r') : r.name = r'.name :=
  (congrArg RecordType.name h.same).symm

theorem InputType.RelaxesTo.name_eq {i i' : InputType} (h : i.RelaxesTo i') : i.name = i'.name :=
  (congrArg InputType.name h.same).symm

theorem EnumType.RelaxesTo.name_eq {e e' : EnumType} (h : e.RelaxesTo e') : e.name = e'.name :=
  (congrArg EnumType.name h.same).symm

theorem EnumType.RelaxesTo.aliases_eq {e e' : EnumType} (h : e.RelaxesTo e') :
    e.aliases = e'.aliases :=
  (congrArg EnumType.aliases h.same).symm

theorem EnumValue.RelaxesTo.name_eq {v v' : EnumValue} (h : v.RelaxesTo v') : v.name = v'.name :=
  (congrArg EnumValue.name h.same).symm

theorem EnumValue.RelaxesTo.ordinal_eq {v v' : EnumValue} (h : v.RelaxesTo v') :
    v.ordinal = v'.ordinal :=
  (congrArg EnumValue.ordinal h.same).symm

theorem Field.RelaxesTo.name_eq {f f' : Field} (h : f.RelaxesTo f') : f.name = f'.name :=
  (congrArg Field.name h.same).symm

section Lists

variable {α β : Type} {R : α → β → Prop} {as : List α} {bs : List β}

theorem map_eq_of_forall₂ {γ : Type} {f : α → γ} {g : β → γ} (h : List.Forall₂ R as bs)
    (hf : ∀ a b, R a b → f a = g b) : as.map f = bs.map g := by
  rw [← List.forall₂_eq_eq_eq, List.forall₂_map_left_iff, List.forall₂_map_right_iff]
  exact h.imp hf

theorem any_eq_of_forall₂ {p : α → Bool} {q : β → Bool} (h : List.Forall₂ R as bs)
    (hp : ∀ a b, R a b → p a = q b) : as.any p = bs.any q := by
  simpa using congrArg (List.any · id) (map_eq_of_forall₂ h hp)

theorem forall₂_concat {a : α} {b : β} (h : List.Forall₂ R as bs) (hab : R a b) :
    List.Forall₂ R (as ++ [a]) (bs ++ [b]) :=
  List.rel_append h (.cons hab .nil)

theorem rel_find? {p : α → Bool} {q : β → Bool} (h : List.Forall₂ R as bs)
    (hp : ∀ a b, R a b → p a = q b) : Option.Rel R (as.find? p) (bs.find? q) := by
  induction h with
  | nil => exact .none
  | @cons a b as bs hab _ ih =>
    rw [List.find?_cons, List.find?_cons, ← hp a b hab]
    cases p a with
    | true => exact .some hab
    | false => exact ih

theorem rel_map {γ δ : Type} {S : γ → δ → Prop} {a? : Option α} {b? : Option β} {f : α → γ}
    {g : β → δ} (h : Option.Rel R a? b?) (hf : ∀ a b, R a b → S (f a) (g b)) :
    Option.Rel S (a?.map f) (b?.map g) := by
  cases h with
  | none => exact .none
  | some hab => exact .some (hf _ _ hab)

theorem rel_or {a? a'? : Option α} {b? b'? : Option β} (h : Option.Rel R a? b?)
    (h' : Option.Rel R a'? b'?) : Option.Rel R (a?.or a'?) (b?.or b'?) := by
  cases h with
  | none => exact h'
  | some hab => exact .some hab

end Lists

namespace Build

theorem forall₂_replaceFirst {α : Type} {R : α → α → Prop} {p : α → Bool} {as bs : List α}
    {a b : α} (h : List.Forall₂ R as bs) (hab : R a b) (hp : ∀ a b, R a b → p a = p b) :
    List.Forall₂ R (replaceFirst p a as) (replaceFirst p b bs) := by
  induction h with
  | nil => exact .nil
  | @cons head head' as bs hhead htail ih =>
    rw [replaceFirst, replaceFirst, ← hp head head' hhead]
    split
    · exact .cons hab htail
    · exact .cons hhead ih

/-- The second context is the first but for future markers, of which it has none more. -/
structure Context.RelaxesTo (c c' : Context) : Prop extends c.SameTypes c' where
  roots_eq : ∀ kind, c.schema.root? kind = c'.schema.root? kind
  future : ∀ file offset, c'.hasMarker file offset .future = true →
    c.hasMarker file offset .future = true

theorem operationField_relaxesTo {status status' : Status} (hstatus : status.RelaxesTo status')
    {f f' : Field} (hf : f.RelaxesTo f') :
    (operationField status f).RelaxesTo (operationField status' f') := by
  obtain ⟨hsame, hown⟩ := hf
  rw [hsame]
  refine ⟨rfl, ?_⟩
  simp only [operationField]
  obtain rfl | ⟨rfl, rfl⟩ := hstatus
  · split
    · exact .inl rfl
    · exact hown
  · rcases f'.status with _ | _
    · exact .inr ⟨rfl, rfl⟩
    · exact .inl rfl

section Declaring

variable {c c' : Context} (h : c.RelaxesTo c')

include h

theorem status_relaxesTo (file offset : Nat) :
    (c.status file offset).RelaxesTo (c'.status file offset) := by
  rw [Context.status, Context.status]
  by_cases hnew : c'.hasMarker file offset .future = true
  · rw [if_pos hnew, if_pos (h.future file offset hnew)]
    exact .inl rfl
  · rw [if_neg hnew]
    split
    · exact .inr ⟨rfl, rfl⟩
    · exact .inl rfl

theorem refines_field (owner : String) (file : Nat) (f : FieldDefinition) :
    Refines Field.RelaxesTo (field c owner file f) (field c' owner file f) := by
  rw [field, field, h.refuseUnionMarker_eq, h.typeExpr_eq, h.argument_eq]
  refine (refines_refl _).bind ?_
  rintro _ _ rfl
  refine (refines_refl _).bind ?_
  rintro type _ rfl
  refine (refines_refl _).bind ?_
  rintro arguments _ rfl
  exact refines_ok ⟨rfl, status_relaxesTo h file f.start⟩

theorem refines_inputField (owner : String) (file : Nat) (f : InputValueDefinition) :
    Refines Field.RelaxesTo (inputField c owner file f) (inputField c' owner file f) := by
  rw [inputField, inputField, h.refuseUnionMarker_eq, h.typeExpr_eq]
  refine (refines_refl _).bind ?_
  rintro _ _ rfl
  refine (refines_refl _).bind ?_
  rintro type _ rfl
  exact refines_ok ⟨rfl, status_relaxesTo h file f.start⟩

theorem refines_enumValue (owner : String) (ordinal file : Nat) (v : EnumValueDefinition) :
    Refines EnumValue.RelaxesTo (enumValue c owner ordinal file v)
      (enumValue c' owner ordinal file v) := by
  rw [enumValue, enumValue, h.refuseUnionMarker_eq]
  refine (refines_refl _).bind ?_
  rintro _ _ rfl
  exact refines_ok ⟨rfl, status_relaxesTo h file v.start⟩

theorem refines_wrapperMember (wrapper : String) (file : Nat) (f : FieldDefinition) :
    Refines UnionMember.RelaxesTo (wrapperMember c wrapper file f)
      (wrapperMember c' wrapper file f) := by
  rw [wrapperMember, wrapperMember, h.typeExpr_eq]
  simp only
  split
  · exact refines_error _
  · refine (refines_refl _).bind ?_
    rintro type _ rfl
    split
    · exact refines_error _
    · split
      · exact refines_ok ⟨rfl, status_relaxesTo h file f.start⟩
      · exact refines_ok ⟨rfl, status_relaxesTo h file f.start⟩
      · exact refines_ok ⟨rfl, status_relaxesTo h file f.start⟩
      · exact refines_error _

theorem refines_fields (t : SchemaType) :
    Refines (List.Forall₂ Field.RelaxesTo) (fields c t) (fields c' t) := by
  refine refines_mapM ?_ _
  rintro ⟨file, f⟩
  exact refines_field h t.name file f

theorem refines_record (t : SchemaType) {status status' : Status}
    (hstatus : status.RelaxesTo status') :
    Refines RecordType.RelaxesTo (record c t status) (record c' t status') := by
  refine (refines_fields h t).bind fun fields fields' hfields ↦ ?_
  exact refines_ok ⟨rfl, hstatus, hfields⟩

theorem refines_addDeclaration (m m' : Model) (t : SchemaType) (hm : m.RelaxesTo m') :
    Refines Model.RelaxesTo (addDeclaration c m t) (addDeclaration c' m' t) := by
  have hstatus := status_relaxesTo h t.file t.definition.start
  unfold addDeclaration
  cases t.kind with
  | scalar => exact refines_ok { hm with scalars := forall₂_concat hm.scalars ⟨rfl, hstatus⟩ }
  | enum =>
    have hvalue (p : (Nat × EnumValueDefinition) × Nat) :=
      refines_enumValue h t.name p.2 p.1.1 p.1.2
    refine (refines_mapM hvalue t.values.zipIdx).bind fun values values' hvalues ↦ ?_
    exact refines_ok { hm with enums := forall₂_concat hm.enums ⟨rfl, hstatus, hvalues⟩ }
  | object =>
    simp only [← h.wrappers_eq]
    split
    · have hmember (p : Nat × FieldDefinition) := refines_wrapperMember h t.name p.1 p.2
      refine (refines_mapM hmember t.fields).bind fun members members' hmembers ↦ ?_
      exact refines_ok { hm with unions := forall₂_concat hm.unions ⟨rfl, hstatus, hmembers⟩ }
    · refine (refines_record h t hstatus).bind fun r r' hr ↦ ?_
      exact refines_ok { hm with objects := forall₂_concat hm.objects hr }
  | interface =>
    refine (refines_record h t hstatus).bind fun r r' hr ↦ ?_
    exact refines_ok { hm with interfaces := forall₂_concat hm.interfaces hr }
  | inputObject =>
    have hfield (p : Nat × InputValueDefinition) := refines_inputField h t.name p.1 p.2
    refine (refines_mapM hfield t.inputFields).bind fun fields fields' hfields ↦ ?_
    exact refines_ok { hm with inputs := forall₂_concat hm.inputs ⟨rfl, hstatus, hfields⟩ }
  | union =>
    have hmembers (members : List UnionMember) :
        List.Forall₂ UnionMember.RelaxesTo members members :=
      List.forall₂_same.mpr fun member _ ↦ ⟨rfl, member.status.relaxesTo_refl⟩
    exact refines_ok { hm with unions := forall₂_concat hm.unions ⟨rfl, hstatus, hmembers _⟩ }

theorem refines_operation (kind : Sdl.OperationKind) (root : SchemaType) :
    Refines Operation.RelaxesTo (operation c kind root) (operation c' kind root) := by
  refine (refines_fields h root).bind fun fields fields' hfields ↦ ?_
  refine refines_ok ⟨rfl, ?_⟩
  rw [List.forall₂_map_left_iff, List.forall₂_map_right_iff]
  exact hfields.imp fun f f' hf ↦
    operationField_relaxesTo (status_relaxesTo h root.file root.definition.start) hf

theorem refines_operations :
    Refines (List.Forall₂ Operation.RelaxesTo) (operations c) (operations c') := by
  have hroot : c'.schema.root? = c.schema.root? := funext fun kind ↦ (h.roots_eq kind).symm
  rw [operations, operations, hroot]
  refine refines_mapM ?_ _
  rintro ⟨kind, root⟩
  exact refines_operation h kind root

end Declaring

section Tables

theorem refines_addAlias (canonical : String) (ordinal : Nat) (olderName : String)
    {e e' : EnumType} (h : e.RelaxesTo e') :
    Refines EnumType.RelaxesTo (addAlias canonical ordinal e olderName)
      (addAlias canonical ordinal e' olderName) := by
  have hvalues : e.values.any (·.name == olderName) = e'.values.any (·.name == olderName) :=
    any_eq_of_forall₂ h.values fun _ _ hv ↦ by rw [hv.name_eq]
  rw [addAlias, addAlias, ← hvalues, ← h.aliases_eq, ← h.name_eq]
  split
  · exact refines_error _
  · exact refines_ok ⟨by rw [h.same], h.status, h.values⟩

theorem refines_addAliases (row : String × List String) {e e' : EnumType}
    (h : e.RelaxesTo e') : Refines EnumType.RelaxesTo (addAliases e row) (addAliases e' row) := by
  have hfind : Option.Rel EnumValue.RelaxesTo (e.value? row.1) (e'.value? row.1) :=
    rel_find? h.values fun _ _ hv ↦ by rw [hv.name_eq]
  rw [addAliases, addAliases]
  generalize e.value? row.1 = v?, e'.value? row.1 = v'? at hfind ⊢
  cases hfind with
  | none => exact refines_error _
  | some hv =>
    simp only [hv.ordinal_eq]
    exact refines_foldlM (fun _ _ olderName he ↦ refines_addAlias _ _ olderName he) _ h

theorem refines_applyAliases (tables : Tables) {m m' : Model} (h : m.RelaxesTo m') :
    Refines Model.RelaxesTo (applyAliases tables m) (applyAliases tables m') := by
  have hname (e e' : EnumType) (he : e.RelaxesTo e') :
      (e.name == tables.errorCodeEnum) = (e'.name == tables.errorCodeEnum) := by
    rw [he.name_eq]
  have hfind : Option.Rel EnumType.RelaxesTo (m.enum? tables.errorCodeEnum)
      (m'.enum? tables.errorCodeEnum) :=
    rel_find? h.enums hname
  rw [applyAliases, applyAliases]
  generalize m.enum? tables.errorCodeEnum = e?, m'.enum? tables.errorCodeEnum = e'? at hfind ⊢
  split
  · exact refines_ok h
  · cases hfind with
    | none => exact refines_error _
    | some he =>
      have hrows := refines_foldlM (fun _ _ row he ↦ refines_addAliases row he)
        tables.legacyAliases he
      refine hrows.bind fun e e' he ↦ refines_ok ?_
      exact { h with enums := forall₂_replaceFirst h.enums he hname }

theorem rel_fieldsOf? {m m' : Model} (h : m.RelaxesTo m') (name : String) :
    Option.Rel (List.Forall₂ Field.RelaxesTo) (fieldsOf? m name) (fieldsOf? m' name) := by
  have hobject : Option.Rel RecordType.RelaxesTo (m.object? name) (m'.object? name) :=
    rel_find? h.objects fun _ _ hr ↦ by rw [hr.name_eq]
  have hinput : Option.Rel InputType.RelaxesTo (m.input? name) (m'.input? name) :=
    rel_find? h.inputs fun _ _ hi ↦ by rw [hi.name_eq]
  have hinterface : Option.Rel RecordType.RelaxesTo (m.interface? name) (m'.interface? name) :=
    rel_find? h.interfaces fun _ _ hr ↦ by rw [hr.name_eq]
  exact rel_or (rel_map hobject fun _ _ hr ↦ hr.fields)
    (rel_or (rel_map hinput fun _ _ hi ↦ hi.fields) (rel_map hinterface fun _ _ hr ↦ hr.fields))

theorem platformDefaults_eq {m m' : Model} (h : m.RelaxesTo m') :
    platformDefaults m = platformDefaults m' := by
  funext row
  have hfields := rel_fieldsOf? h row.1
  rw [platformDefaults, platformDefaults]
  generalize fieldsOf? m row.1 = fields?, fieldsOf? m' row.1 = fields'? at hfields ⊢
  cases hfields with
  | none => rfl
  | @some fields fields' hfields =>
    have hdefault : platformDefault row.1 fields = platformDefault row.1 fields' := by
      funext entry
      have hnames : fields.any (·.name == entry.1) = fields'.any (·.name == entry.1) :=
        any_eq_of_forall₂ hfields fun _ _ hf ↦ by rw [hf.name_eq]
      rw [platformDefault, platformDefault, hnames]
    simp only [hdefault]

theorem refines_applyDefaults (tables : Tables) {m m' : Model} (h : m.RelaxesTo m') :
    Refines Model.RelaxesTo (applyDefaults tables m) (applyDefaults tables m') := by
  rw [applyDefaults, applyDefaults, ← platformDefaults_eq h]
  refine (refines_refl _).bind ?_
  rintro rows _ rfl
  exact refines_ok { h with platformDefaults := rfl }

end Tables

end Build

open Build in
/-- Without some of its future markers a schema still has a model, and at most statuses differ. -/
theorem refines_build {loaded loaded' : LoadedSchema}
    (hsources : loaded.schema.sources.map (·.name) = loaded'.schema.sources.map (·.name))
    (htypes : loaded.schema.types = loaded'.schema.types)
    (hroots : loaded.schema.roots = loaded'.schema.roots)
    (hunion : ∀ file offset,
      loaded.markers.has file (loaded.schema.sources.file file) offset .union =
        loaded'.markers.has file (loaded'.schema.sources.file file) offset .union)
    (hfuture : ∀ file offset,
      loaded'.markers.has file (loaded'.schema.sources.file file) offset .future = true →
        loaded.markers.has file (loaded.schema.sources.file file) offset .future = true)
    (tables : Tables) :
    Refines Model.RelaxesTo (Model.build loaded tables) (Model.build loaded' tables) := by
  obtain ⟨⟨sources, types, roots, directives⟩, markers⟩ := loaded
  obtain ⟨⟨sources', types', roots', directives'⟩, markers'⟩ := loaded'
  obtain rfl : types = types' := htypes
  obtain rfl : roots = roots' := hroots
  have hcontext (wrappers : List String) :
      (⟨⟨⟨sources, types, roots, directives⟩, markers⟩, wrappers⟩ : Context).RelaxesTo
        ⟨⟨⟨sources', types, roots, directives'⟩, markers'⟩, wrappers⟩ :=
    ⟨⟨fun _ ↦ rfl, rfl, hunion⟩, fun _ ↦ rfl, hfuture⟩
  have hwrappers : wrappers ⟨⟨sources, types, roots, directives⟩, markers⟩ =
      wrappers ⟨⟨sources', types, roots, directives'⟩, markers'⟩ := by
    simp only [wrappers, (hcontext []).union_eq]
    rfl
  have hnames : (sources.map fun f ↦ baseName f.name) = sources'.map fun f ↦ baseName f.name := by
    have hbase := congrArg (List.map baseName) hsources
    rwa [List.map_map, List.map_map] at hbase
  rw [Model.build, Model.build, hwrappers]
  refine (refines_refl _).bind ?_
  rintro wrappers _ rfl
  simp only [Context.schema, hnames]
  refine (refines_foldlM (refines_addDeclaration (hcontext wrappers)) _
    (relaxesTo_empty _)).bind fun m m' hm ↦ ?_
  refine (refines_operations (hcontext wrappers)).bind fun os os' hos ↦ ?_
  have hm : Model.RelaxesTo { m with operations := os } { m' with operations := os' } :=
    { hm with operations := hos }
  refine (refines_applyAliases tables hm).bind fun m m' hm ↦ ?_
  refine (refines_applyDefaults tables hm).bind fun m m' hm ↦ ?_
  refine (refines_refl _).bind ?_
  rintro _ _ rfl
  exact refines_ok hm

end SchemaBindings.Model
