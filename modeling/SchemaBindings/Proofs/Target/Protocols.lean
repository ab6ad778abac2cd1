import SchemaBindings.Proofs.Attempt
import SchemaBindings.Proofs.Model.Records
import SchemaBindings.Proofs.Target.Declarations

namespace SchemaBindings

open Model

namespace Property

/-- The properties that are declared for a field, each with its type: the one that is stored, then
the getter beside it. -/
def members (t : Target) (p : Property) : List (String × String) :=
  (p.stored, t.typeText p.field.type) ::
    p.witness.toList.map fun type ↦ (t.language.fieldName p.field.name, type)

theorem map_fst_members (t : Target) (p : Property) :
    (p.members t).map (·.1) = (p.declared t.language).map (·.identifier) := by
  simp [members, declared, Function.comp_def]

end Property

def Record.members (t : Target) (r : Record) : List (String × String) :=
  r.properties.flatMap (·.members t)

namespace Target

variable {t : Target} {implements : List String}

/-- The interfaces that declare a field give it one type. -/
def Agrees (t : Target) (implements : List String) (field : String) : Prop :=
  ∀ a ∈ t.requiredTypes implements field, ∀ b ∈ t.requiredTypes implements field, a.2 = b.2

theorem mem_members_of_property {f : Field} {p : Property} (h : t.property implements f = .ok p)
    {a : String × TypeExpr} (ha : a ∈ t.requiredTypes implements f.name) :
    (t.language.fieldName f.name, t.typeText a.2) ∈ p.members t := by
  unfold property at h
  dsimp only at h
  split at h
  next hnone =>
    cases h
    have hsame : a.2 = f.type := by simpa using List.find?_eq_none.mp hnone a ha
    rw [hsame]
    exact List.mem_cons_self
  next interface type hsome =>
    split at h
    · cases h
    next hnone =>
      cases h
      have hsame : a.2 = type := by simpa using List.find?_eq_none.mp hnone a ha
      rw [hsame]
      exact List.mem_cons_of_mem _ List.mem_cons_self

theorem exists_property_iff (f : Field) :
    (∃ p, t.property implements f = .ok p) ↔ t.Agrees implements f.name := by
  unfold property
  dsimp only
  split
  next hnone =>
    have hsame (a) (ha : a ∈ t.requiredTypes implements f.name) : a.2 = f.type := by
      simpa using List.find?_eq_none.mp hnone a ha
    exact ⟨fun _ a ha b hb ↦ (hsame a ha).trans (hsame b hb).symm, fun _ ↦ ⟨_, rfl⟩⟩
  next interface type hsome =>
    have hmem := List.mem_of_find?_eq_some hsome
    split
    next other type' hother =>
      have hne : type' ≠ type := by simpa using List.find?_some hother
      exact ⟨nofun, fun h ↦ absurd (h _ (List.mem_of_find?_eq_some hother) _ hmem) hne⟩
    next hnone =>
      have hsame (a) (ha : a ∈ t.requiredTypes implements f.name) : a.2 = type := by
        simpa using List.find?_eq_none.mp hnone a ha
      exact ⟨fun _ a ha b hb ↦ (hsame a ha).trans (hsame b hb).symm, fun _ ↦ ⟨_, rfl⟩⟩

theorem failsOnly_property (t : Target) (implements : List String) (f : Field) :
    Attempt.FailsOnly (fun o ↦ ∃ field first second, o = .diverging field first second)
      (t.property implements f) := by
  intro o ho
  unfold property at ho
  dsimp only at ho
  split at ho
  · cases ho
  · split at ho <;> cases ho
    exact ⟨_, _, _, rfl⟩

theorem properties_and_nodup_of_record {r : RecordType} {record : Record}
    (h : t.record r = .ok record) :
    r.fields.mapM (t.property r.implements) = .ok record.properties ∧
      ((record.members t).map (·.1)).Nodup := by
  obtain ⟨properties, hproperties, h⟩ := (Attempt.bind_eq_ok_iff _ _ _).mp h
  split at h <;> cases h
  next hnone =>
    refine ⟨hproperties, ?_⟩
    rw [Declared.clash?_eq_none, List.map_flatMap] at hnone
    rw [Record.members, List.map_flatMap]
    simpa only [Property.map_fst_members] using hnone

theorem mem_members_of_record {r : RecordType} {record : Record} (h : t.record r = .ok record)
    {f : Field} (hf : f ∈ r.fields) {a : String × TypeExpr}
    (ha : a ∈ t.requiredTypes r.implements f.name) :
    (t.language.fieldName f.name, t.typeText a.2) ∈ record.members t := by
  obtain ⟨p, hp, hproperty⟩ :=
    Attempt.exists_ok_of_mapM_of_mem (properties_and_nodup_of_record h).1 f hf
  exact List.mem_flatMap.mpr ⟨p, hp, mem_members_of_property hproperty ha⟩

theorem exists_diverging_of_record {r : RecordType} {f : Field} (hf : f ∈ r.fields)
    (h : ¬ t.Agrees r.implements f.name) :
    ∃ field first second, t.record r = .error (.diverging field first second) := by
  have hfails := Attempt.FailsOnly.mapM fun f (_ : f ∈ r.fields) ↦
    failsOnly_property t r.implements f
  cases hproperties : r.fields.mapM (t.property r.implements) with
  | ok properties =>
    obtain ⟨p, -, hp⟩ := Attempt.exists_ok_of_mapM_of_mem hproperties f hf
    exact absurd ((exists_property_iff f).mp ⟨p, hp⟩) h
  | error o =>
    obtain ⟨field, first, second, rfl⟩ := hfails o hproperties
    exact ⟨field, first, second, by rw [record, hproperties]; rfl⟩

theorem mem_requiredTypes (hm : t.model.HasDistinctNames) {i : RecordType}
    (hi : i ∈ t.model.interfaces) (himplements : i.name ∈ implements) {g : Field}
    (hg : g ∈ i.fields) : (i.name, g.type) ∈ t.requiredTypes implements g.name := by
  refine List.mem_filterMap.mpr ⟨i, List.mem_filterMap.mpr ⟨i.name, himplements, ?_⟩, ?_⟩
  · exact (hm.interface?_eq_some_iff _ _).mpr ⟨hi, rfl⟩
  · have hfields := hm.fields i (List.mem_append_right _ hi)
    rw [(find?_key_eq_some_iff hfields g.name g).mpr ⟨hg, rfl⟩]
    rfl

theorem filter_eq_singleton_of_mem {members : List (String × String)} {name type : String}
    (hnodup : (members.map (·.1)).Nodup) (h : (name, type) ∈ members) :
    members.filter (·.1 = name) = [(name, type)] :=
  filter_eq_singleton hnodup h (by simp) fun b _ hb ↦ by simpa using hb

/-- A record has exactly one property with the name of a field that an interface asks for, and its
type is the one that the interface declares; where two interfaces declare different types there is
no record. -/
theorem record_meets_protocols {sources : Sources} {loaded : LoadedSchema} {tables : Tables}
    {m : Model} (hload : Schema.load sources = .ok loaded)
    (hbuild : Model.build loaded tables = .ok m) {m' : Model} (hm : m' = m ∨ m' = m.stable)
    (others : Tables) {r : RecordType} {f : Field} (hf : f ∈ r.fields)
    {i : RecordType} (hi : i ∈ m'.interfaces) (hir : i.name ∈ r.implements) {g : Field}
    (hg : g ∈ i.fields) (hname : g.name = f.name) :
    let t : Target := ⟨.swift, m', others⟩
    (∀ record, t.record r = .ok record →
      (record.members t).filter (·.1 = t.language.fieldName f.name) =
        [(t.language.fieldName f.name, t.typeText g.type)]) ∧
      ∀ j ∈ m'.interfaces, j.name ∈ r.implements → ∀ g' ∈ j.fields, g'.name = f.name →
        g.type ≠ g'.type → ∃ field first second,
          t.record r = .error (.diverging field first second) := by
  intro t
  have hnames : m'.HasDistinctNames := by
    have hbuilt := (loaded_of_load hload).hasDistinctNames_of_build hbuild
    rcases hm with rfl | rfl
    · exact hbuilt
    · exact hbuilt.stable
  have hrequired := mem_requiredTypes (t := t) hnames hi hir hg
  rw [hname] at hrequired
  refine ⟨fun record hrecord ↦ ?_, fun j hj hjr g' hg' hname' hne ↦ ?_⟩
  · exact filter_eq_singleton_of_mem (properties_and_nodup_of_record hrecord).2
      (mem_members_of_record hrecord hf hrequired)
  · have hrequired' := mem_requiredTypes (t := t) hnames hj hjr hg'
    rw [hname'] at hrequired'
    exact exists_diverging_of_record hf fun hagrees ↦ hne (hagrees _ hrequired _ hrequired')

def shopSources : Sources :=
  [.ofText "shop.graphql" ("interface Node \x7b next: Node \x7d\n" ++
    "interface Strict \x7b next: Node! \x7d\n" ++
    "type Product implements Node \x7b next: Product \x7d\n" ++
    "type Offer implements Node & Strict \x7b next: Product! \x7d")]

theorem record_meets_protocols_shop :
    ∃ loaded m, Schema.load shopSources = .ok loaded ∧ Model.build loaded .empty = .ok m ∧
      (∃ product ∈ m.objects, ∃ r, record ⟨.swift, m, .empty⟩ product = .ok r ∧
        (r.members ⟨.swift, m, .empty⟩).filter (·.1 = "next") = [("next", "Node?")]) ∧
      ∃ offer ∈ m.objects, ∃ field first second,
        record ⟨.swift, m, .empty⟩ offer = .error (.diverging field first second) := by
  have hrun : Attempt.succeeds (Schema.load shopSources) (fun loaded ↦
      Attempt.succeeds (Model.build loaded .empty) fun m ↦
        (m.objects.any fun r ↦ Attempt.succeeds (record ⟨.swift, m, .empty⟩ r) (fun _ ↦ true) &&
          r.fields.any fun f ↦ m.interfaces.any fun i ↦ decide (i.name ∈ r.implements) &&
            i.fields.any fun g ↦ g.name == f.name && f.name == "next" &&
              typeText ⟨.swift, m, .empty⟩ g.type == "Node?") &&
        m.objects.any fun r ↦ r.fields.any fun f ↦ m.interfaces.any fun i ↦
          decide (i.name ∈ r.implements) && i.fields.any fun g ↦ g.name == f.name &&
            m.interfaces.any fun j ↦ decide (j.name ∈ r.implements) &&
              j.fields.any fun g' ↦ g'.name == f.name && decide (g.type ≠ g'.type)) = true := by
    decide +kernel
  obtain ⟨loaded, hload, hrun⟩ := (Attempt.succeeds_iff _ _).mp hrun
  obtain ⟨m, hbuild, hrun⟩ := (Attempt.succeeds_iff _ _).mp hrun
  simp only [Bool.and_eq_true, List.any_eq_true, decide_eq_true_eq, beq_iff_eq] at hrun
  obtain ⟨⟨product, hproduct, hrecord, f, hf, i, hi, hir, g, hg, ⟨hname, hnext⟩, htype⟩,
    offer, hoffer, f', hf', i', hi', hir', g', hg', hname', j, hj, hjr, h, hh, hhname, hne⟩ := hrun
  obtain ⟨r, hr, -⟩ := (Attempt.succeeds_iff _ _).mp hrecord
  have hone := (record_meets_protocols hload hbuild (.inl rfl) .empty hf hi hir hg hname).1 r hr
  have hnone := (record_meets_protocols hload hbuild (.inl rfl) .empty hf' hi' hir' hg' hname').2
    j hj hjr h hh hhname hne
  rw [hnext, htype] at hone
  exact ⟨loaded, m, hload, hbuild, ⟨product, hproduct, r, hr, hone⟩, offer, hoffer, hnone⟩

end Target

end SchemaBindings
