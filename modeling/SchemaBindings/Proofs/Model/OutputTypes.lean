import SchemaBindings.Proofs.Model.FieldOrigins
import SchemaBindings.Proofs.Model.TypeReferences
import SchemaBindings.Proofs.Target.Identifiers

namespace SchemaBindings

open Sdl Model Model.Build Attempt

def Model.outputs (m : Model) : List TypeExpr :=
  (m.records.flatMap (·.fields)).map (·.type) ++
    (m.operations.flatMap (·.fields)).map (·.returnType)

theorem Model.mem_types_of_mem_outputs {m : Model} {e : TypeExpr} (h : e ∈ m.outputs) :
    e ∈ m.types := by
  rw [Model.types, List.mem_append, List.mem_append]
  rcases List.mem_append.mp h with h | h
  · obtain ⟨f, hf, rfl⟩ := List.mem_map.mp h
    exact .inl (.inl (List.mem_flatMap.mpr ⟨f, hf, List.mem_cons_self⟩))
  · obtain ⟨f, hf, rfl⟩ := List.mem_map.mp h
    exact .inr (List.mem_flatMap.mpr ⟨f, hf, List.mem_cons_self⟩)

/-- A type of the schema has the name and is of one of the kinds. Unless the schema leaves it out,
the model declares it once and as such. -/
structure LoadedSchema.Declares (s : LoadedSchema) (m : Model) (kinds : List NamedKind)
    (name : String) : Prop where
  type : ∃ t ∈ s.schema.types, t.name = name ∧ t.modelKind (s.isMarked t) ∈ kinds
  resolves : m.Resolves s.schema kinds name

namespace Model.Build

/-- The type may be that of a field, and no mark against null follows another one. -/
inductive Context.IsOutput (c : Context) : TypeExpr → Prop
  | scalar {name : String} (h : isBuiltinScalar name) : c.IsOutput (.scalar name)
  | named {r : NamedType} (hname : IsName r.name) (hkind : r.kind ≠ .input) (h : c.Names r) :
    c.IsOutput (.named r)
  | list {item : TypeExpr} (h : c.IsOutput item) : c.IsOutput (.list item)
  | nonNull {e : TypeExpr} (hnull : e.isRequired = false) (h : c.IsOutput e) :
    c.IsOutput (.nonNull e)

variable {c : Context}

theorem Context.IsOutput.require {e : TypeExpr} (h : c.IsOutput e) : c.IsOutput e.require := by
  cases h with
  | scalar h => exact .nonNull rfl (.scalar h)
  | named hname hkind h => exact .nonNull rfl (.named hname hkind h)
  | list h => exact .nonNull rfl (.list h)
  | nonNull hnull h => exact .nonNull hnull h

theorem Context.IsOutput.names {e : TypeExpr} {r : NamedType} (h : c.IsOutput e)
    (hr : e.named? = some r) : c.Names r := by
  induction h with
  | scalar => cases hr
  | named _ _ h =>
    cases hr
    exact h
  | list _ ih => exact ih hr
  | nonNull _ _ ih => exact ih hr

theorem namedKind_eq_modelKind (c : Context) (t : SchemaType) :
    c.namedKind t.name t.kind = t.modelKind (c.wraps t) := by
  unfold SchemaType.modelKind Context.wraps
  cases t.kind <;> rfl

theorem namedKind_ne_input {name : String} {kind : TypeKind} (h : kind ≠ .inputObject) :
    c.namedKind name kind ≠ .input := by
  cases kind with
  | inputObject => exact absurd rfl h
  | object =>
    rw [Context.namedKind]
    split <;> simp
  | scalar | enum | interface | union => simp [Context.namedKind]

theorem isOutput_of_typeExpr {referrer : String} {r : TypeRef} {kind : TypeKind} {e : TypeExpr}
    (hname : IsName r.name) (hkind : c.schema.kind? r.name = some kind) (hout : kind ≠ .inputObject)
    (h : c.typeExpr referrer r = .ok e) : c.IsOutput e := by
  induction r generalizing e with
  | named name span =>
    have hkind : c.schema.kind? name = some kind := hkind
    simp only [Context.typeExpr, hkind] at h
    split at h
    next hbuiltin =>
      cases h
      exact .scalar hbuiltin
    next hdeclared =>
      cases h
      exact .named hname (namedKind_ne_input hout) (names_of_kind? hdeclared hkind)
  | list r span ih =>
    obtain ⟨item, hitem, rfl⟩ := (map_eq_ok_iff _ _ _).mp h
    exact .list (ih hname hkind hitem)
  | nonNull r span ih =>
    obtain ⟨inner, hinner, rfl⟩ := (map_eq_ok_iff _ _ _).mp h
    exact (ih hname hkind hinner).require

end Model.Build

section Loaded

variable {sources : Sources} {s : LoadedSchema} {tables : Tables} {m : Model}

theorem mem_references_of_mem_fields {t : SchemaType} {p : Nat × FieldDefinition}
    (hp : p ∈ t.fields) : (p.1, p.2.type) ∈ t.references := by
  obtain ⟨part, hpart, hp⟩ := List.mem_flatMap.mp hp
  obtain ⟨f, hf, rfl⟩ := List.mem_map.mp hp
  refine List.mem_flatMap.mpr ⟨part, hpart, List.mem_map.mpr ⟨f.type, ?_, rfl⟩⟩
  exact List.mem_append_left _ (List.mem_map.mpr ⟨f, hf, rfl⟩)

theorem Loaded.isOutput_of_builds (h : Loaded sources s) {t : SchemaType}
    (ht : t ∈ s.schema.types) {f : Field} (hf : s.context.Builds t f) :
    s.context.IsOutput f.type := by
  obtain ⟨p, hp, hf⟩ := hf
  obtain ⟨_, -, hf⟩ := (bind_eq_ok_iff _ _ _).mp hf
  obtain ⟨type, htype, hf⟩ := (bind_eq_ok_iff _ _ _).mp hf
  obtain ⟨arguments, -, hf⟩ := (bind_eq_ok_iff _ _ _).mp hf
  cases hf
  obtain ⟨ts, -, hspelling⟩ := h.exists_spelling ht (mem_references_of_mem_fields hp)
  obtain ⟨kind, hrefers, hout⟩ := (h.types_wellFormed t ht).field_types p hp
  have hkind := (kindOf?_eq_some_iff h.names_nodup h.names_new _ _).mpr hrefers
  exact isOutput_of_typeExpr hspelling.name hkind hout htype

/-- Every type of a field in a built model may be one. -/
theorem Loaded.isOutput_of_build (h : Loaded sources s) (hbuild : Model.build s tables = .ok m)
    {e : TypeExpr} (he : e ∈ m.outputs) : s.context.IsOutput e := by
  rcases List.mem_append.mp he with he | he
  · obtain ⟨f, hf, rfl⟩ := List.mem_map.mp he
    obtain ⟨r, hr, hf⟩ := List.mem_flatMap.mp hf
    obtain ⟨t, ht, hbuilds⟩ := (originates_of_build hbuild).exists_builds hr hf
    exact h.isOutput_of_builds ht hbuilds
  · obtain ⟨f, hf, rfl⟩ := List.mem_map.mp he
    obtain ⟨o, ho, hf⟩ := List.mem_flatMap.mp hf
    obtain ⟨t, ht, f', status, hbuilds, rfl⟩ := builds_of_mem_operations hbuild ho hf
    exact h.isOutput_of_builds ht hbuilds

theorem Loaded.declares_of_build (h : Loaded sources s) (hbuild : Model.build s tables = .ok m)
    {e : TypeExpr} (he : e ∈ m.outputs) {r : NamedType} (hr : e.named? = some r)
    {kinds : List NamedKind} (hkinds : kinds.Nodup) (hk : r.kind ∈ kinds) :
    s.Declares m kinds r.name := by
  constructor
  · obtain ⟨t, ht, hname, hkind⟩ := (h.isOutput_of_build hbuild he).names hr
    have hwraps : s.context.wraps t = s.isMarked t :=
      Bool.eq_iff_iff.mpr (h.wrappers_contains_iff ht)
    rw [namedKind_eq_modelKind, hwraps] at hkind
    exact ⟨t, ht, hname, hkind ▸ hk⟩
  · have hwell := h.types_wellFormed
    obtain ⟨c, rfl, hholds, hos⟩ := holds_of_build
      (fun t ht ↦ (hwell t ht).implements_interfaces) (fun t ht ↦ (hwell t ht).members_objects)
      hbuild
    have hroots : (c.loaded.schema.roots.map (·.1)).Nodup := h.roots_eq ▸ Merge.nodup_roots _ _
    have hnames := hholds.types e (mem_types_of_mem_outputs he) r hr
    exact hholds.resolves hos h.names_nodup hroots hkinds hk hnames

end Loaded

end SchemaBindings
