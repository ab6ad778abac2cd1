import SchemaBindings.Proofs.Model.Faults
import SchemaBindings.Proofs.Schema.Bare

namespace SchemaBindings.Model

open Sdl Attempt

def withoutSources (m : Model) : Model :=
  { m with metadata := { m.metadata with sources := [] } }

namespace Build

/-- Two contexts in which the same types are known and the same of them stand for unions. -/
structure Context.SameTypes (c c' : Context) : Prop where
  kind_eq : ∀ name, c.schema.kind? name = c'.schema.kind? name
  wrappers_eq : c.wrappers = c'.wrappers
  union_eq : ∀ file offset, c.hasMarker file offset .union = c'.hasMarker file offset .union

namespace Context.SameTypes

variable {c c' : Context} (h : c.SameTypes c')

include h

theorem refuseUnionMarker_eq : c.refuseUnionMarker = c'.refuseUnionMarker := by
  funext file offset span target
  rw [refuseUnionMarker, refuseUnionMarker, h.union_eq]

theorem namedKind_eq : c.namedKind = c'.namedKind := by
  funext name kind
  cases kind with
  | object => rw [namedKind, namedKind, h.wrappers_eq]
  | _ => rfl

theorem typeExpr_eq : c.typeExpr = c'.typeExpr := by
  funext referrer t
  induction t with
  | named name _ => rw [typeExpr, typeExpr, h.kind_eq, h.namedKind_eq]
  | list t _ ih => rw [typeExpr, typeExpr, ih]
  | nonNull t _ ih => rw [typeExpr, typeExpr, ih]

theorem argument_eq : argument c = argument c' := by
  funext owner a
  rw [argument, argument, h.typeExpr_eq]

end Context.SameTypes

/-- Two contexts in which a type or a marker is looked up with the same result. -/
structure Context.Agrees (c c' : Context) : Prop where
  hasMarker_eq : ∀ file offset kind, c.hasMarker file offset kind = c'.hasMarker file offset kind
  kind_eq : ∀ name, c.schema.kind? name = c'.schema.kind? name
  wrappers_eq : c.wrappers = c'.wrappers

namespace Context.Agrees

variable {c c' : Context} (h : c.Agrees c')

include h

theorem sameTypes : c.SameTypes c' :=
  ⟨h.kind_eq, h.wrappers_eq, fun file offset ↦ h.hasMarker_eq file offset .union⟩

theorem status_eq : c.status = c'.status := by
  funext file offset
  rw [status, status, h.hasMarker_eq]

theorem field_eq : field c = field c' := by
  funext owner file f
  rw [field, field, h.sameTypes.refuseUnionMarker_eq, h.sameTypes.typeExpr_eq,
    h.sameTypes.argument_eq, h.status_eq]

theorem inputField_eq : inputField c = inputField c' := by
  funext owner file f
  rw [inputField, inputField, h.sameTypes.refuseUnionMarker_eq, h.sameTypes.typeExpr_eq,
    h.status_eq]

theorem enumValue_eq : enumValue c = enumValue c' := by
  funext owner ordinal file v
  rw [enumValue, enumValue, h.sameTypes.refuseUnionMarker_eq, h.status_eq]

theorem wrapperMember_eq : wrapperMember c = wrapperMember c' := by
  funext wrapper file f
  rw [wrapperMember, wrapperMember, h.sameTypes.typeExpr_eq, h.status_eq]

theorem fields_eq : fields c = fields c' := by
  funext t
  rw [fields, fields, h.field_eq]

theorem record_eq : record c = record c' := by
  funext t status
  rw [record, record, h.fields_eq]

theorem addDeclaration_eq : addDeclaration c = addDeclaration c' := by
  funext m t
  rw [addDeclaration, addDeclaration, h.status_eq, h.wrappers_eq, h.enumValue_eq,
    h.wrapperMember_eq, h.record_eq, h.inputField_eq]

theorem operation_eq : operation c = operation c' := by
  funext kind root
  rw [operation, operation, h.status_eq, h.fields_eq]

end Context.Agrees

section Bare

mutual

theorem value_bare (v : Sdl.Value) : value v.bare = value v := by
  match v with
  | .variableRef _ | .int _ _ | .float _ _ | .string _ _ | .boolean _ _ | .null _ | .enum _ => rfl
  | .list items _ => rw [Sdl.Value.bare, value, value, valueItems_bare items]
  | .object fields _ => rw [Sdl.Value.bare, value, value, valueFields_bare fields]

theorem valueItems_bare (items : List Sdl.Value) :
    valueItems (Sdl.Value.bareItems items) = valueItems items := by
  match items with
  | [] => rfl
  | item :: items =>
    rw [Sdl.Value.bareItems, valueItems, valueItems, value_bare item, valueItems_bare items]

theorem valueFields_bare (fields : List (Name × Sdl.Value)) :
    valueFields (Sdl.Value.bareFields fields) = valueFields fields := by
  match fields with
  | [] => rfl
  | (name, v) :: fields =>
    rw [Sdl.Value.bareFields, valueFields, valueFields, value_bare v, valueFields_bare fields]
    rfl

end

theorem descriptionOf_bare (d : Option Description) :
    descriptionOf (d.map Description.bare) = descriptionOf d := by
  cases d <;> rfl

theorem deprecation?_bare (directives : List Directive) :
    deprecation? (directives.map Directive.bare) = deprecation? directives := by
  have hargument (d : Directive) :
      d.bare.argument? "reason" = (d.argument? "reason").map Sdl.Value.bare := by
    rw [Directive.argument?, Directive.argument?, Directive.bare, List.find?_map, Option.map_map,
      Option.map_map]
    rfl
  rw [deprecation?, deprecation?, List.find?_map, Option.map_map]
  refine congrArg (Option.map · _) (funext fun d ↦ ?_)
  rw [Function.comp_apply, hargument]
  rcases d.argument? "reason" with _ | v
  · rfl
  · cases v <;> rfl

variable (c : Context)

theorem typeExpr_bare (referrer : String) (t : TypeRef) :
    c.typeExpr referrer t.bare = c.typeExpr referrer t := by
  induction t with
  | named => rfl
  | list t _ ih => rw [TypeRef.bare, Context.typeExpr, Context.typeExpr, ih]
  | nonNull t _ ih => rw [TypeRef.bare, Context.typeExpr, Context.typeExpr, ih]

theorem argument_bare (owner : String) (a : InputValueDefinition) :
    argument c owner a.bare = argument c owner a := by
  have hdefault : (a.defaultValue.map Sdl.Value.bare).map value = a.defaultValue.map value := by
    rw [Option.map_map]
    exact congrArg (Option.map · _) (funext value_bare)
  simp only [argument, InputValueDefinition.bare, typeExpr_bare, hdefault, descriptionOf_bare,
    deprecation?_bare, Name.text_bare]

variable {c} (hc : ∀ file offset kind, c.hasMarker file offset kind = false)

include hc

theorem status_eq_stable (file offset : Nat) : c.status file offset = .stable := by
  rw [Context.status, hc]
  rfl

theorem refuseUnionMarker_eq_ok (file offset : Nat) (span : Span) (target : String) :
    c.refuseUnionMarker file offset span target = .ok () := by
  rw [Context.refuseUnionMarker, hc]
  rfl

theorem field_bare (owner : String) (file file' : Nat) (f : FieldDefinition) :
    field c owner file' f.bare = field c owner file f := by
  have harguments (referrer : String) : (f.arguments.map InputValueDefinition.bare).mapM
      (argument c referrer) = f.arguments.mapM (argument c referrer) := by
    rw [List.mapM_map]
    exact congrArg (List.mapM · _) (funext fun a ↦ argument_bare c referrer a)
  simp only [field, refuseUnionMarker_eq_ok hc, status_eq_stable hc, FieldDefinition.bare,
    typeExpr_bare, harguments, descriptionOf_bare, deprecation?_bare, Name.text_bare]

theorem inputField_bare (owner : String) (file file' : Nat) (f : InputValueDefinition) :
    inputField c owner file' f.bare = inputField c owner file f := by
  have hdefault : (f.defaultValue.map Sdl.Value.bare).map value = f.defaultValue.map value := by
    rw [Option.map_map]
    exact congrArg (Option.map · _) (funext value_bare)
  simp only [inputField, refuseUnionMarker_eq_ok hc, status_eq_stable hc,
    InputValueDefinition.bare, typeExpr_bare, hdefault, descriptionOf_bare, deprecation?_bare,
    Name.text_bare]

theorem enumValue_bare (owner : String) (ordinal file file' : Nat) (v : EnumValueDefinition) :
    enumValue c owner ordinal file' v.bare = enumValue c owner ordinal file v := by
  simp only [enumValue, refuseUnionMarker_eq_ok hc, status_eq_stable hc, EnumValueDefinition.bare,
    descriptionOf_bare, deprecation?_bare, Name.text_bare]

theorem fields_bare (t : SchemaType) : fields c t.bare = fields c t := by
  rw [fields, fields, t.fields_bare, List.mapM_map, t.name_bare]
  exact congrArg (List.mapM · _) (funext fun p ↦ field_bare hc _ _ _ p.2)

theorem record_bare (t : SchemaType) (status : Status) :
    record c t.bare status = record c t status := by
  have himplements : t.bare.implements.map (fun p ↦ p.2.text) =
      t.implements.map fun p ↦ p.2.text := by
    rw [t.implements_bare, List.map_map]
    rfl
  have hdescription : t.bare.description = t.description := descriptionOf_bare _
  rw [record, record, fields_bare hc, hdescription, himplements, t.name_bare]

theorem addDeclaration_bare (hw : c.wrappers = []) (m : Model) (t : SchemaType) :
    addDeclaration c m t.bare = addDeclaration c m t := by
  have hdescription : t.bare.description = t.description := descriptionOf_bare _
  have hvalues : (t.bare.values.zipIdx.mapM fun p ↦ enumValue c t.name p.2 p.1.1 p.1.2) =
      t.values.zipIdx.mapM fun p ↦ enumValue c t.name p.2 p.1.1 p.1.2 := by
    rw [t.values_bare, List.zipIdx_map, List.mapM_map]
    exact congrArg (List.mapM · _) (funext fun p ↦ enumValue_bare hc _ _ _ _ p.1.2)
  have hinputFields : (t.bare.inputFields.mapM fun p ↦ inputField c t.name p.1 p.2) =
      t.inputFields.mapM fun p ↦ inputField c t.name p.1 p.2 := by
    rw [t.inputFields_bare, List.mapM_map]
    exact congrArg (List.mapM · _) (funext fun p ↦ inputField_bare hc _ _ _ p.2)
  have hmembers :
      (t.bare.members.map fun p ↦ (⟨p.2.text, p.2.text, none, none, .stable⟩ : UnionMember)) =
        t.members.map fun p ↦ ⟨p.2.text, p.2.text, none, none, .stable⟩ := by
    rw [t.members_bare, List.map_map]
    rfl
  rw [addDeclaration, addDeclaration, status_eq_stable hc, status_eq_stable hc, t.kind_bare]
  cases t.kind with
  | scalar => simp only [t.name_bare, hdescription]
  | enum => simp only [t.name_bare, hdescription, hvalues]
  | object =>
    simp only [hw, List.contains_nil, Bool.false_eq_true, if_false, record_bare hc]
  | interface => simp only [record_bare hc]
  | inputObject => simp only [t.name_bare, hdescription, hinputFields]
  | union => simp only [t.name_bare, hdescription, hmembers]

theorem operation_bare (kind : Sdl.OperationKind) (root : SchemaType) :
    operation c kind root.bare = operation c kind root := by
  rw [operation, operation, status_eq_stable hc, status_eq_stable hc, fields_bare hc,
    root.name_bare]

end Bare

section Sources

theorem addDeclaration_withoutSources (c : Context) (m : Model) (t : SchemaType) :
    addDeclaration c m.withoutSources t = (addDeclaration c m t).map withoutSources := by
  rw [addDeclaration, addDeclaration]
  cases t.kind with
  | scalar => rfl
  | union => rfl
  | enum =>
    simp only [map_bind]
    rfl
  | object =>
    simp only
    split <;> rw [map_bind] <;> rfl
  | interface =>
    simp only [map_bind]
    rfl
  | inputObject =>
    simp only [map_bind]
    rfl

theorem foldlM_addDeclaration_withoutSources (c : Context) (ts : List SchemaType) (m : Model) :
    ts.foldlM (addDeclaration c) m.withoutSources =
      (ts.foldlM (addDeclaration c) m).map withoutSources := by
  induction ts generalizing m with
  | nil => rfl
  | cons t ts ih =>
    rw [List.foldlM_cons, List.foldlM_cons, addDeclaration_withoutSources, bind_map, map_bind]
    exact congrArg (_ >>= ·) (funext ih)

theorem applyAliases_withoutSources (tables : Tables) (m : Model) :
    applyAliases tables m.withoutSources = (applyAliases tables m).map withoutSources := by
  have henum (name : String) : m.withoutSources.enum? name = m.enum? name := rfl
  rw [applyAliases, applyAliases, henum]
  split
  · rfl
  · cases m.enum? tables.errorCodeEnum with
    | none => rfl
    | some e =>
      simp only [map_bind]
      rfl

theorem applyDefaults_withoutSources (tables : Tables) (m : Model) :
    applyDefaults tables m.withoutSources = (applyDefaults tables m).map withoutSources := by
  have hrows : platformDefaults m.withoutSources = platformDefaults m := rfl
  rw [applyDefaults, applyDefaults, hrows, map_bind]
  rfl

theorem applyTables_withoutSources (s : Schema) (tables : Tables) (m : Model) :
    applyTables s tables m.withoutSources = (applyTables s tables m).map withoutSources := by
  simp only [applyTables, applyAliases_withoutSources, bind_map, map_bind,
    applyDefaults_withoutSources]
  rfl

end Sources

section Unmarked

variable (s : Schema)

theorem has_nil (file : Nat) (source : SourceFile) (offset : Nat) (kind : MarkerKind) :
    (⟨[]⟩ : MarkerTable).has file source offset kind = false := by
  rw [MarkerTable.has, MarkerTable.forDeclaration, MarkerTable.get]
  simp

theorem marked_eq_nil : (⟨s, ⟨[]⟩⟩ : LoadedSchema).marked = [] := by
  refine List.filter_eq_nil_iff.mpr fun t _ ↦ ?_
  rw [LoadedSchema.isMarked, has_nil]
  exact Bool.false_ne_true

def unmarked : Context :=
  ⟨⟨s, ⟨[]⟩⟩, []⟩

theorem context_eq_unmarked : (⟨s, ⟨[]⟩⟩ : LoadedSchema).context = unmarked s := by
  rw [LoadedSchema.context, marked_eq_nil]
  rfl

theorem hasMarker_unmarked (file offset : Nat) (kind : MarkerKind) :
    (unmarked s).hasMarker file offset kind = false :=
  has_nil _ _ _ _

theorem agrees_bare : (unmarked s.bare).Agrees (unmarked s) where
  hasMarker_eq _ _ _ := (hasMarker_unmarked _ _ _ _).trans (hasMarker_unmarked _ _ _ _).symm
  kind_eq name := kindOf?_bare s.types name
  wrappers_eq := rfl

theorem declareAll_bare : declareAll ⟨s.bare, ⟨[]⟩⟩ =
    (declareAll ⟨s, ⟨[]⟩⟩).map withoutSources := by
  have hdeclared : s.bare.types.filter (isDeclared (unmarked s.bare)) =
      (s.types.filter (isDeclared (unmarked s))).map SchemaType.bare := List.filter_map
  rw [declareAll, declareAll, context_eq_unmarked, context_eq_unmarked, hdeclared,
    (agrees_bare s).addDeclaration_eq, List.foldlM_map, ← foldlM_addDeclaration_withoutSources]
  refine congrArg (List.foldlM · _ _) (funext₂ fun m t ↦ ?_)
  exact addDeclaration_bare (hasMarker_unmarked s) rfl m t

theorem root?_bare (kind : Sdl.OperationKind) :
    s.bare.root? kind = (s.root? kind).map SchemaType.bare := by
  rw [Schema.root?, Schema.root?, Option.map_bind]
  exact congrArg (Option.bind _) (funext fun name ↦ findType?_bare s.types name)

theorem operations_bare : operations (unmarked s.bare) = operations (unmarked s) := by
  have hroots : (Sdl.OperationKind.all.filterMap fun kind ↦
        ((unmarked s.bare).schema.root? kind).map fun root ↦ (kind, root)) =
      (Sdl.OperationKind.all.filterMap fun kind ↦
        ((unmarked s).schema.root? kind).map fun root ↦ (kind, root)).map
          fun p ↦ (p.1, p.2.bare) := by
    rw [List.map_filterMap]
    refine List.filterMap_congr fun kind _ ↦ ?_
    have hroot : (unmarked s.bare).schema.root? kind =
        ((unmarked s).schema.root? kind).map SchemaType.bare := root?_bare s kind
    rw [hroot, Option.map_map, Option.map_map]
    rfl
  rw [operations, operations, hroots, (agrees_bare s).operation_eq, List.mapM_map]
  refine congrArg (List.mapM · _) (funext fun p ↦ ?_)
  exact operation_bare (hasMarker_unmarked s) p.1 p.2

theorem applyTables_bare (tables : Tables) : applyTables s.bare tables = applyTables s tables := by
  have hcheck : checkCustomInput s.bare = checkCustomInput s := by
    funext name
    have hkind : s.bare.kind? name = s.kind? name := kindOf?_bare s.types name
    rw [checkCustomInput, checkCustomInput, hkind]
  funext m
  rw [applyTables, applyTables, hcheck]

end Unmarked

end Build

open Build in
/-- Without markers the model, but for the names of the files, does not depend on where the parts of
the schema stand. -/
theorem build_bare (s : Schema) (tables : Tables) :
    Model.build ⟨s.bare, ⟨[]⟩⟩ tables = (Model.build ⟨s, ⟨[]⟩⟩ tables).map withoutSources := by
  have hmarked (s : Schema) :
      (⟨s, ⟨[]⟩⟩ : LoadedSchema).marked.filterMap (markFault? s) = [] := by
    rw [marked_eq_nil]
    rfl
  rw [build_eq (hmarked s.bare), build_eq (hmarked s), declareAll_bare, context_eq_unmarked,
    context_eq_unmarked, operations_bare, bind_map, map_bind]
  refine congrArg (_ >>= ·) (funext fun m ↦ ?_)
  rw [map_bind]
  refine congrArg (_ >>= ·) (funext fun os ↦ ?_)
  have htables : applyTables s.bare tables = applyTables s tables := applyTables_bare s tables
  exact (congrFun htables _).trans
    (applyTables_withoutSources s tables { m with operations := os })

open Build in
/-- Of the files of a schema the build reads the names only, once the markers of declarations are
known. -/
theorem build_congr {loaded loaded' : LoadedSchema}
    (hsources : loaded'.schema.sources.map (·.name) = loaded.schema.sources.map (·.name))
    (htypes : loaded'.schema.types = loaded.schema.types)
    (hroots : loaded'.schema.roots = loaded.schema.roots)
    (hmarkers : ∀ file offset kind,
      loaded'.markers.has file (loaded'.schema.sources.file file) offset kind =
        loaded.markers.has file (loaded.schema.sources.file file) offset kind) (tables : Tables) :
    Model.build loaded' tables = Model.build loaded tables := by
  obtain ⟨⟨sources, types, roots, directives⟩, markers⟩ := loaded
  obtain ⟨⟨sources', types', roots', directives'⟩, markers'⟩ := loaded'
  obtain rfl : types' = types := htypes
  obtain rfl : roots' = roots := hroots
  have hagrees (wrappers : List String) :
      (⟨⟨⟨sources', types', roots', directives'⟩, markers'⟩, wrappers⟩ : Context).Agrees
        ⟨⟨⟨sources, types', roots', directives⟩, markers⟩, wrappers⟩ :=
    ⟨hmarkers, fun _ ↦ rfl, rfl⟩
  have hwrappers : wrappers ⟨⟨sources', types', roots', directives'⟩, markers'⟩ =
      wrappers ⟨⟨sources, types', roots', directives⟩, markers⟩ := by
    simp only [wrappers, (hagrees []).hasMarker_eq]
    rfl
  have hnames : (sources'.map fun f ↦ baseName f.name) = sources.map fun f ↦ baseName f.name := by
    have hbase := congrArg (List.map baseName) hsources
    rwa [List.map_map, List.map_map] at hbase
  have hoperations (wrappers : List String) :
      Build.operations ⟨⟨⟨sources', types', roots', directives'⟩, markers'⟩, wrappers⟩ =
        Build.operations ⟨⟨⟨sources, types', roots', directives⟩, markers⟩, wrappers⟩ := by
    rw [Build.operations, Build.operations, (hagrees wrappers).operation_eq]
    rfl
  rw [Model.build, Model.build, hwrappers]
  refine congrArg (_ >>= ·) (funext fun wrappers ↦ ?_)
  simp only [Context.schema, hnames, hoperations, (hagrees wrappers).addDeclaration_eq]
  rfl

end SchemaBindings.Model
