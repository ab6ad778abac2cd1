import SchemaBindings.Proofs.Model.UnionMarkers

namespace SchemaBindings

open Sdl Merge Model Model.Build Attempt

/-- What a reader of a declaration sees of a field, an enum value or a case of a union. -/
structure MemberOutline where
  name : String
  description : Option String
  deprecation : Option String
  deriving Repr, DecidableEq, Inhabited

structure Outline where
  name : String
  description : Option String
  union : Option UnionKind
  members : List MemberOutline
  deriving Repr, DecidableEq, Inhabited

structure OperationOutline where
  kind : Model.OperationKind
  typeName : String
  members : List MemberOutline
  deriving Repr, DecidableEq, Inhabited

namespace Sdl

def FieldDefinition.outline (f : FieldDefinition) : MemberOutline :=
  ⟨f.name.text, f.description.map (·.value), deprecation? f.directives⟩

def InputValueDefinition.outline (f : InputValueDefinition) : MemberOutline :=
  ⟨f.name.text, f.description.map (·.value), deprecation? f.directives⟩

def EnumValueDefinition.outline (v : EnumValueDefinition) : MemberOutline :=
  ⟨v.name.text, v.description.map (·.value), deprecation? v.directives⟩

end Sdl

namespace SchemaType

def memberOutlines (t : SchemaType) : List MemberOutline :=
  match t.kind with
  | .scalar => []
  | .enum => t.values.map fun p ↦ p.2.outline
  | .object | .interface => t.fields.map fun p ↦ p.2.outline
  | .inputObject => t.inputFields.map fun p ↦ p.2.outline
  | .union => t.members.map fun p ↦ ⟨p.2.text, none, none⟩

def modelKind (t : SchemaType) (marked : Bool) : NamedKind :=
  match t.kind with
  | .scalar => .scalar
  | .enum => .enum
  | .object => if marked then .union else .object
  | .interface => .interface
  | .inputObject => .input
  | .union => .union

def unionKind? (t : SchemaType) (marked : Bool) : Option UnionKind :=
  match t.kind with
  | .union => some .native
  | .object => if marked then some .wrapper else none
  | .scalar | .enum | .interface | .inputObject => none

def outline (t : SchemaType) (marked : Bool) : Outline :=
  ⟨t.name, t.description, t.unionKind? marked, t.memberOutlines⟩

end SchemaType

instance (s : Schema) (name : String) : Decidable (s.LeavesOut name) :=
  inferInstanceAs (Decidable (_ ∨ _))

namespace Schema

/-- The types that are part of the model. -/
def modelled (s : Schema) : List SchemaType :=
  s.types.filter fun t ↦ ¬ s.LeavesOut t.name

/-- The operations that the schema has, each with the type that offers it. -/
def offers (s : Schema) : List (Sdl.OperationKind × SchemaType) :=
  Sdl.OperationKind.all.filterMap fun kind ↦ (s.root? kind).map (kind, ·)

end Schema

namespace Model

def Field.outline (f : Field) : MemberOutline :=
  ⟨f.name, f.description, f.deprecation⟩

def EnumValue.outline (v : EnumValue) : MemberOutline :=
  ⟨v.name, v.description, v.deprecation⟩

def UnionMember.outline (u : UnionMember) : MemberOutline :=
  ⟨u.name, u.description, u.deprecation⟩

def OperationField.outline (f : OperationField) : MemberOutline :=
  ⟨f.name, f.description, f.deprecation⟩

def ScalarType.outline (t : ScalarType) : Outline :=
  ⟨t.name, t.description, none, []⟩

def EnumType.outline (t : EnumType) : Outline :=
  ⟨t.name, t.description, none, t.values.map EnumValue.outline⟩

def RecordType.outline (t : RecordType) : Outline :=
  ⟨t.name, t.description, none, t.fields.map Field.outline⟩

def InputType.outline (t : InputType) : Outline :=
  ⟨t.name, t.description, none, t.fields.map Field.outline⟩

def UnionType.outline (t : UnionType) : Outline :=
  ⟨t.name, t.description, some t.kind, t.members.map UnionMember.outline⟩

def Operation.outline (o : Operation) : OperationOutline :=
  ⟨o.kind, o.typeName, o.fields.map OperationField.outline⟩

def outlines (m : Model) : NamedKind → List Outline
  | .scalar => m.scalars.map ScalarType.outline
  | .enum => m.enums.map EnumType.outline
  | .object => m.objects.map RecordType.outline
  | .interface => m.interfaces.map RecordType.outline
  | .input => m.inputs.map InputType.outline
  | .union => m.unions.map UnionType.outline

def allOutlines (m : Model) : List Outline :=
  NamedKind.all.flatMap m.outlines

end Model

/-- A model shows the types of a schema: each type that is part of it once and in the collection of
its kind, and the types that offer operations as these. -/
structure Model.Mirrors (m : Model) (s : LoadedSchema) : Prop where
  declarations : ∀ kind, m.outlines kind =
    (s.schema.modelled.filter fun t ↦ t.modelKind (s.isMarked t) = kind).map
      fun t ↦ t.outline (s.isMarked t)
  once : ∀ t ∈ s.schema.modelled,
    m.allOutlines.filter (·.name = t.name) = [t.outline (s.isMarked t)]
  operations : m.operations.map Operation.outline = s.schema.offers.map fun p ↦
    ⟨operationKind p.1, p.2.name, p.2.fields.map fun f ↦ f.2.outline⟩
  offered : s.schema.offers.map (fun p ↦ (p.1, p.2.name)) = s.schema.roots
  ordered : (m.operations.map (·.kind)).Sublist Model.OperationKind.all

section Members

variable {c : Context}

theorem outline_of_field {owner : String} {file : Nat} {f : FieldDefinition} {f' : Field}
    (h : field c owner file f = .ok f') : f'.outline = f.outline := by
  obtain ⟨_, -, h⟩ := (bind_eq_ok_iff _ _ _).mp h
  obtain ⟨type, -, h⟩ := (bind_eq_ok_iff _ _ _).mp h
  obtain ⟨arguments, -, h⟩ := (bind_eq_ok_iff _ _ _).mp h
  cases h
  rfl

theorem outline_of_inputField {owner : String} {file : Nat} {f : InputValueDefinition} {f' : Field}
    (h : inputField c owner file f = .ok f') : f'.outline = f.outline := by
  obtain ⟨_, -, h⟩ := (bind_eq_ok_iff _ _ _).mp h
  obtain ⟨type, -, h⟩ := (bind_eq_ok_iff _ _ _).mp h
  cases h
  rfl

theorem outline_of_enumValue {owner : String} {ordinal file : Nat} {v : EnumValueDefinition}
    {v' : EnumValue} (h : enumValue c owner ordinal file v = .ok v') : v'.outline = v.outline := by
  obtain ⟨_, -, h⟩ := (bind_eq_ok_iff _ _ _).mp h
  cases h
  rfl

theorem outline_of_wrapperMember {wrapper : String} {file : Nat} {f : FieldDefinition}
    {u : UnionMember} (h : wrapperMember c wrapper file f = .ok u) : u.outline = f.outline := by
  unfold wrapperMember at h
  simp only at h
  split at h
  · cases h
  obtain ⟨type, -, h⟩ := (bind_eq_ok_iff _ _ _).mp h
  split at h
  · cases h
  split at h
  all_goals
    cases h
    try rfl

theorem outlines_of_fields {t : SchemaType} {fs : List Field} (h : fields c t = .ok fs) :
    fs.map Field.outline = t.fields.map fun p ↦ p.2.outline :=
  map_eq_of_mapM _ _ h fun _ _ hf ↦ outline_of_field hf

theorem outline_of_record {t : SchemaType} {status : Status} {r : RecordType}
    (h : record c t status = .ok r) :
    r.outline = ⟨t.name, t.description, none, t.fields.map fun p ↦ p.2.outline⟩ := by
  obtain ⟨fs, hfs, h⟩ := (bind_eq_ok_iff _ _ _).mp h
  cases h
  rw [RecordType.outline, outlines_of_fields hfs]

theorem outline_of_operation {kind : Sdl.OperationKind} {root : SchemaType} {o : Operation}
    (h : operation c kind root = .ok o) :
    o.outline = ⟨operationKind kind, root.name, root.fields.map fun p ↦ p.2.outline⟩ := by
  obtain ⟨fs, hfs, h⟩ := (bind_eq_ok_iff _ _ _).mp h
  cases h
  rw [Operation.outline, ← outlines_of_fields hfs, List.map_map]
  rfl

end Members

section Declarations

variable {c : Context}

def Model.Build.Context.wraps (c : Context) (t : SchemaType) : Bool :=
  c.wrappers.contains t.name

/-- A type adds its outline to the collection of its kind and changes no other. -/
theorem outlines_addDeclaration {m m' : Model} {t : SchemaType}
    (h : addDeclaration c m t = .ok m') (kind : NamedKind) :
    m'.outlines kind = m.outlines kind ++
      if t.modelKind (c.wraps t) = kind then [t.outline (c.wraps t)] else [] := by
  unfold SchemaType.modelKind SchemaType.outline SchemaType.unionKind? SchemaType.memberOutlines
  cases adds_of_addDeclaration h with
  | scalar hk => cases kind <;> simp [hk, outlines, ScalarType.outline]
  | enum hk hvalues =>
    have hmembers := map_eq_of_mapM EnumValue.outline
      (fun p : (Nat × EnumValueDefinition) × Nat ↦ p.1.2.outline) hvalues
      fun _ _ hv ↦ outline_of_enumValue hv
    have hpositions := congrArg (List.map fun p : Nat × EnumValueDefinition ↦ p.2.outline)
      (List.zipIdx_map_fst 0 t.values)
    rw [List.map_map] at hpositions
    have hmembers := hmembers.trans hpositions
    cases kind <;> simp [hk, outlines, EnumType.outline, hmembers]
  | wrapper hk hw hmem =>
    have hmembers := map_eq_of_mapM UnionMember.outline
      (fun p : Nat × FieldDefinition ↦ p.2.outline) hmem
      fun _ _ hu ↦ outline_of_wrapperMember hu
    have hwraps : c.wraps t = true := hw
    cases kind <;> simp [hk, hwraps, outlines, UnionType.outline, hmembers]
  | object hk hw hr =>
    have hrecord := outline_of_record hr
    have hwraps : c.wraps t = false := hw
    cases kind <;> simp [hk, hwraps, outlines, hrecord]
  | interface hk hr =>
    have hrecord := outline_of_record hr
    cases kind <;> simp [hk, outlines, hrecord]
  | input hk hfs =>
    have hmembers := map_eq_of_mapM Field.outline
      (fun p : Nat × InputValueDefinition ↦ p.2.outline) hfs fun _ _ hf ↦ outline_of_inputField hf
    cases kind <;> simp [hk, outlines, InputType.outline, hmembers]
  | union hk => cases kind <;> simp [hk, outlines, UnionType.outline, UnionMember.outline]

theorem outlines_foldlM_addDeclaration {types : List SchemaType} {m m' : Model}
    (h : types.foldlM (addDeclaration c) m = .ok m') (kind : NamedKind) :
    m'.outlines kind = m.outlines kind ++
      (types.filter fun t ↦ t.modelKind (c.wraps t) = kind).map fun t ↦ t.outline (c.wraps t) := by
  refine foldlM_preserves (fun done (m' : Model) ↦ m'.outlines kind = m.outlines kind ++
    (done.filter fun t ↦ t.modelKind (c.wraps t) = kind).map fun t ↦ t.outline (c.wraps t))
    ?_ [] h (by simp)
  intro done t m₁ m₂ hdone hadd
  rw [outlines_addDeclaration hadd, hdone, List.filter_append, List.map_append, List.append_assoc]
  by_cases hkind : t.modelKind (c.wraps t) = kind <;> simp [hkind]

end Declarations

section Roots

theorem lookup_filterMap {α β : Type} [BEq α] [LawfulBEq α] (f : α → Option β) (as : List α)
    (a : α) : (as.filterMap fun a ↦ (f a).map (a, ·)).lookup a = if a ∈ as then f a else none := by
  induction as with
  | nil => rfl
  | cons b as ih =>
    by_cases hb : a = b
    · subst hb
      cases hf : f a <;> simp [hf, ih]
    · have hne : (a == b) = false := beq_false_of_ne hb
      cases hf : f b <;> simp [hf, ih, hb, List.lookup_cons, hne]

variable {sources : Sources} {s : LoadedSchema}

theorem Loaded.exists_root (h : Loaded sources s) {p : Sdl.OperationKind × String}
    (hp : p ∈ s.schema.roots) : ∃ t, s.schema.type? p.2 = some t ∧ t.name = p.2 := by
  obtain ⟨t, ht, -⟩ := Option.map_eq_some_iff.mp (h.isObjectName_of_mem_roots hp)
  exact ⟨t, ht, ((findType?_eq_some_iff h.names_nodup _ _).mp ht).2⟩

theorem Loaded.map_offers (h : Loaded sources s) :
    s.schema.offers.map (fun p ↦ (p.1, p.2.name)) = s.schema.roots := by
  obtain ⟨f, hf⟩ := Merge.exists_roots_eq (Merge.merged sources.definitions)
    (Merge.schemaParts sources.definitions)
  have hroots := h.roots_eq.trans hf
  rw [Schema.offers, List.map_filterMap, hroots]
  refine List.filterMap_congr fun kind hkind ↦ ?_
  have hlookup : s.schema.roots.lookup kind = f kind := by
    rw [hroots, lookup_filterMap, if_pos hkind]
  rw [Schema.root?, hlookup]
  cases hname : f kind with
  | none => rfl
  | some name =>
    have hmem : (kind, name) ∈ s.schema.roots := by
      rw [hroots]
      exact List.mem_filterMap.mpr ⟨kind, hkind, by rw [hname]; rfl⟩
    obtain ⟨t, ht, rfl⟩ := h.exists_root hmem
    simp only [Option.bind_some, ht]
    rfl

theorem outlines_operations {c : Context} {os : List Operation} (h : operations c = .ok os) :
    os.map Operation.outline = c.schema.offers.map fun p ↦
      ⟨operationKind p.1, p.2.name, p.2.fields.map fun f ↦ f.2.outline⟩ :=
  map_eq_of_mapM _ _ h fun _ _ ho ↦ outline_of_operation ho

theorem sublist_kinds_offers (s : Schema) :
    (s.offers.map fun p ↦ operationKind p.1).Sublist Model.OperationKind.all := by
  have hkinds : (s.offers.map (·.1)).Sublist Sdl.OperationKind.all := by
    refine sublist_map_filterMap (fun kind p hp ↦ ?_) _
    obtain ⟨t, -, rfl⟩ := Option.map_eq_some_iff.mp hp
    rfl
  have hmap := hkinds.map operationKind
  rw [List.map_map] at hmap
  exact hmap

end Roots

section Mirroring

variable {sources : Sources} {s : LoadedSchema} {tables : Tables} {m : Model}

theorem modelled_eq (s : LoadedSchema) :
    s.schema.modelled = s.schema.types.filter (isDeclared s.context) := by
  refine List.filter_congr fun t _ ↦ ?_
  rw [Bool.eq_iff_iff, decide_eq_true_iff]
  exact (isDeclared_iff (c := s.context) t).symm

theorem Loaded.wraps_eq (h : Loaded sources s) {t : SchemaType} (ht : t ∈ s.schema.modelled) :
    s.context.wraps t = s.isMarked t :=
  Bool.eq_iff_iff.mpr (h.wrappers_contains_iff (List.mem_filter.mp ht).1)

theorem Loaded.outlines_of_build (h : Loaded sources s) (hbuild : Model.build s tables = .ok m)
    (kind : NamedKind) :
    m.outlines kind = (s.schema.modelled.filter fun t ↦ t.modelKind (s.isMarked t) = kind).map
      fun t ↦ t.outline (s.isMarked t) := by
  obtain ⟨declared, hfrom⟩ := exists_builtFrom hbuild
  have hempty : (Model.empty (.signed (s.schema.sources.map fun f ↦ baseName f.name))).outlines
      kind = [] := by
    cases kind <;> rfl
  have houtlines := outlines_foldlM_addDeclaration hfrom.declared_eq kind
  rw [hempty, List.nil_append, ← modelled_eq] at houtlines
  have hfilter : (s.schema.modelled.filter fun t ↦ t.modelKind (s.context.wraps t) = kind) =
      s.schema.modelled.filter fun t ↦ t.modelKind (s.isMarked t) = kind :=
    List.filter_congr fun t ht ↦ by rw [h.wraps_eq ht]
  have henums : m.enums.map EnumType.outline = declared.enums.map EnumType.outline :=
    map_eq_of_withoutAliases hfrom.enums_eq _ fun _ ↦ rfl
  have htables : m.outlines kind = declared.outlines kind := by
    rw [hfrom.model_eq]
    cases kind with
    | enum => exact henums
    | _ => rfl
  rw [htables, houtlines, hfilter]
  refine List.map_congr_left fun t ht ↦ ?_
  rw [h.wraps_eq (List.mem_filter.mp ht).1]

theorem operations_of_build (hbuild : Model.build s tables = .ok m) :
    operations s.context = .ok m.operations :=
  (exists_builtFrom hbuild).elim fun _ hfrom ↦ hfrom.operations_eq

theorem filter_flatMap_eq_singleton {α β κ : Type} [DecidableEq κ] {as : List α} {kinds : List κ}
    (key : α → String) (kind : α → κ) (f : α → β) (name : β → String)
    (hname : ∀ a, name (f a) = key a) (hnd : (as.map key).Nodup) (hkinds : kinds.Nodup) {a : α}
    (ha : a ∈ as) (hkind : kind a ∈ kinds) :
    (kinds.flatMap fun k ↦ (as.filter (kind · = k)).map f).filter (name · = key a) = [f a] := by
  have hone : as.filter (key · = key a) = [a] :=
    filter_eq_singleton hnd ha (by simp) fun b _ hb ↦ by simpa using hb
  have hgroup (k : κ) : ((as.filter (kind · = k)).map f).filter (name · = key a) =
      if kind a = k then [f a] else [] := by
    have hcomp : (fun b ↦ decide (name b = key a)) ∘ f = fun b ↦ decide (key b = key a) :=
      funext fun b ↦ by rw [Function.comp_apply, hname]
    rw [List.filter_map, List.filter_filter, hcomp]
    simp only [Bool.and_comm (decide (key _ = key a))]
    rw [← List.filter_filter, hone]
    by_cases hk : kind a = k <;> simp [hk]
  rw [List.filter_flatMap]
  simp only [hgroup]
  obtain ⟨before, after, rfl⟩ := List.append_of_mem hkind
  have hothers (k : κ) (hk : k ∈ before ++ after) : kind a ≠ k := by
    rintro rfl
    exact (List.nodup_middle.mp hkinds).notMem hk
  rw [List.flatMap_append, List.flatMap_cons, if_pos rfl, List.flatMap_eq_nil_iff.mpr,
    List.flatMap_eq_nil_iff.mpr]
  · rfl
  · exact fun k hk ↦ if_neg (hothers k (List.mem_append_right _ hk))
  · exact fun k hk ↦ if_neg (hothers k (List.mem_append_left _ hk))

/-- A model that has been built shows the types of the schema. -/
theorem Model.mirrors_of_load_of_build {sources : Sources} {loaded : LoadedSchema}
    {tables : Tables} {m : Model} (hload : Schema.load sources = .ok loaded)
    (hbuild : Model.build loaded tables = .ok m) :
    loaded.schema.types = merged sources.definitions ∧ m.Mirrors loaded := by
  have h := loaded_of_load hload
  have hdeclarations := h.outlines_of_build hbuild
  have hoperations := outlines_operations (operations_of_build hbuild)
  refine ⟨h.types_eq, hdeclarations, fun t ht ↦ ?_, hoperations, h.map_offers, ?_⟩
  · rw [allOutlines, funext hdeclarations]
    have hkinds : NamedKind.all.Nodup := by decide
    refine filter_flatMap_eq_singleton SchemaType.name (fun t ↦ t.modelKind (loaded.isMarked t))
      (fun t ↦ t.outline (loaded.isMarked t)) Outline.name (fun _ ↦ rfl) ?_ hkinds ht ?_
    · exact h.names_nodup.sublist (List.filter_sublist.map _)
    · cases t.modelKind (loaded.isMarked t) <;> decide
  · have hkinds := congrArg (List.map (·.kind)) hoperations
    rw [List.map_map, List.map_map] at hkinds
    exact hkinds ▸ sublist_kinds_offers loaded.schema

end Mirroring

def shelfSources : Sources :=
  [.ofText "item.graphql" ("type Query \x7b item(id: ID!): Item \x7d\n# => Union\n" ++
      "type Item \x7b book: Book map: Map \x7d\ntype Map \x7b size: Size \x7d\n" ++
      "\"What fits\"\nenum Size \x7b SMALL \x7d"),
    .ofText "book.graphql" ("extend type Query \x7b count: Int \x7d\n" ++
      "type Book \x7b \"On the back\" title: String @deprecated(reason: \"old\") \x7d\n" ++
      "extend enum Size \x7b LARGE \x7d\nextend type Book \x7b pages: Int \x7d")]

def shelfOutlines : List Outline :=
  [⟨"Size", some "What fits", none, [⟨"SMALL", none, none⟩, ⟨"LARGE", none, none⟩]⟩,
    ⟨"Map", none, none, [⟨"size", none, none⟩]⟩,
    ⟨"Book", none, none, [⟨"title", some "On the back", some "old"⟩, ⟨"pages", none, none⟩]⟩,
    ⟨"Item", none, some .wrapper, [⟨"book", none, none⟩, ⟨"map", none, none⟩]⟩]

theorem Model.mirrors_shelf :
    ∃ loaded m, Schema.load shelfSources = .ok loaded ∧ Model.build loaded .empty = .ok m ∧
      m.allOutlines = shelfOutlines ∧
      m.operations.map Operation.outline =
        [⟨.query, "Query", [⟨"item", none, none⟩, ⟨"count", none, none⟩]⟩] ∧
      loaded.schema.types = merged shelfSources.definitions ∧ m.Mirrors loaded := by
  have hrun : Attempt.succeeds (Schema.load shelfSources) (fun loaded ↦
      Attempt.succeeds (Model.build loaded .empty) fun m ↦
        m.allOutlines = shelfOutlines ∧
        m.operations.map Operation.outline =
          [⟨.query, "Query", [⟨"item", none, none⟩, ⟨"count", none, none⟩]⟩]) = true := by
    decide +kernel
  obtain ⟨loaded, hload, hrun⟩ := (Attempt.succeeds_iff _ _).mp hrun
  obtain ⟨m, hbuild, hm⟩ := (Attempt.succeeds_iff _ _).mp hrun
  obtain ⟨houtlines, hoperations⟩ := of_decide_eq_true hm
  exact ⟨loaded, m, hload, hbuild, houtlines, hoperations, mirrors_of_load_of_build hload hbuild⟩

end SchemaBindings
