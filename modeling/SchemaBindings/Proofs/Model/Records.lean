import SchemaBindings.Proofs.Model.Outlines
import SchemaBindings.Proofs.Model.Stability
import SchemaBindings.Proofs.Model.TableRows

namespace SchemaBindings

open Model Build

structure Model.HasDistinctNames (m : Model) : Prop where
  records : (m.records.map (·.name)).Nodup
  fields : ∀ r ∈ m.records, (r.fields.map (·.name)).Nodup

section Built

variable {sources : Sources} {s : LoadedSchema} {tables : Tables} {m : Model}

theorem Loaded.mem_names_iff (h : Loaded sources s) (hbuild : Model.build s tables = .ok m)
    (kind : NamedKind) (name : String) : name ∈ m.names kind ↔
      ∃ t ∈ s.schema.modelled, t.modelKind (s.isMarked t) = kind ∧ t.name = name := by
  have hnames : m.names kind = (m.outlines kind).map Outline.name := by
    cases kind <;> rw [names, outlines, List.map_map] <;> rfl
  rw [hnames, h.outlines_of_build hbuild, List.map_map, List.mem_map]
  simp only [List.mem_filter, decide_eq_true_eq, and_assoc]
  rfl

theorem Loaded.exists_type_of_mem_records (h : Loaded sources s)
    (hbuild : Model.build s tables = .ok m) {r : RecordType} (hr : r ∈ m.records) :
    ∃ t ∈ s.schema.types, t.name = r.name ∧
      t.fields.map (·.2.name.text) = r.fields.map (·.name) := by
  obtain ⟨kind, hkind, houtline⟩ : ∃ kind, (kind = .object ∨ kind = .interface) ∧
      r.outline ∈ m.outlines kind := by
    rcases List.mem_append.mp hr with hr | hr
    · exact ⟨.object, .inl rfl, List.mem_map_of_mem hr⟩
    · exact ⟨.interface, .inr rfl, List.mem_map_of_mem hr⟩
  rw [h.outlines_of_build hbuild] at houtline
  obtain ⟨t, ht, heq⟩ := List.mem_map.mp houtline
  obtain ⟨hmodelled, htkind⟩ := List.mem_filter.mp ht
  refine ⟨t, (List.mem_filter.mp hmodelled).1, congrArg Outline.name heq, ?_⟩
  have hmembers : t.memberOutlines = t.fields.map fun p ↦ p.2.outline := by
    have htkind := of_decide_eq_true htkind
    unfold SchemaType.modelKind at htkind
    unfold SchemaType.memberOutlines
    rcases hkind with rfl | rfl <;> split at htkind <;> simp_all
  have hnames := congrArg (fun o ↦ o.members.map MemberOutline.name) heq
  simp only [SchemaType.outline, hmembers, RecordType.outline, List.map_map] at hnames
  exact hnames

theorem Loaded.hasDistinctNames_of_build (h : Loaded sources s)
    (hbuild : Model.build s tables = .ok m) : m.HasDistinctNames := by
  obtain ⟨c, rfl, hholds, -⟩ := holds_of_build
    (fun type ht ↦ (h.types_wellFormed type ht).implements_interfaces)
    (fun type ht ↦ (h.types_wellFormed type ht).members_objects) hbuild
  constructor
  · have hn := h.names_nodup.sublist ((List.filter_sublist (p := isDeclared c)).map (·.name))
    have hnames : ([NamedKind.object, .interface].flatMap m.names).Nodup :=
      hholds.names_nodup hn (by decide)
    simpa [names, records] using hnames
  · intro r hr
    obtain ⟨t, ht, -, hfields⟩ := h.exists_type_of_mem_records hbuild hr
    rw [← hfields]
    exact (h.types_wellFormed t ht).fields_nodup

end Built

theorem Model.names_stable_sublist (m : Model) (kind : NamedKind) :
    (m.stable.names kind).Sublist (m.names kind) := by
  cases kind <;> simp only [names, stable, List.map_map] <;> exact List.filter_sublist.map _

theorem Model.mem_names_stable {m : Model} {kind : NamedKind} {name : String}
    (h : name ∈ m.names kind) (hfuture : ¬ m.IsFuture name) : name ∈ m.stable.names kind := by
  have hkept {α : Type} {status : α → Status} {nameOf : α → String} {f : α → α} {as : List α}
      (hf : ∀ a, nameOf (f a) = nameOf a)
      (hdeclared : (as.map fun a ↦ (status a, nameOf a)) ⊆ m.declarations)
      (h : name ∈ as.map nameOf) :
      name ∈ ((as.filter fun a ↦ !(status a).isFuture).map f).map nameOf := by
    obtain ⟨a, ha, rfl⟩ := List.mem_map.mp h
    have hstable : status a = .stable := by
      have hmem := hdeclared (List.mem_map_of_mem ha)
      cases hstatus : status a with
      | stable => rfl
      | future => exact absurd (by rwa [hstatus] at hmem) hfuture
    exact List.mem_map.mpr ⟨f a, mem_map_stable_iff.mpr ⟨a, ha, hstable, rfl⟩, hf a⟩
  cases kind with
  | scalar =>
    rw [names, stable, ← List.map_id (List.filter _ _)]
    exact hkept (fun _ ↦ rfl) (fun d hd ↦ by simp [declarations, hd]) h
  | enum => exact hkept (fun _ ↦ rfl) (fun d hd ↦ by simp [declarations, hd]) h
  | object => exact hkept (fun _ ↦ rfl) (fun d hd ↦ by simp [declarations, hd]) h
  | interface => exact hkept (fun _ ↦ rfl) (fun d hd ↦ by simp [declarations, hd]) h
  | input => exact hkept (fun _ ↦ rfl) (fun d hd ↦ by simp [declarations, hd]) h
  | union => exact hkept (fun _ ↦ rfl) (fun d hd ↦ by simp [declarations, hd]) h

namespace Model.HasDistinctNames

variable {m : Model}

theorem stable (h : m.HasDistinctNames) : m.stable.HasDistinctNames := by
  constructor
  · refine h.records.sublist ?_
    rw [Model.records, List.map_append, Model.records, List.map_append]
    exact (m.names_stable_sublist .object).append (m.names_stable_sublist .interface)
  · intro r hr
    obtain ⟨r', hr', -, rfl⟩ := (mem_records_stable_iff r).mp hr
    exact (h.fields r' hr').sublist (List.filter_sublist.map _)

theorem interface?_eq_some_iff (h : m.HasDistinctNames) (name : String) (i : RecordType) :
    m.interface? name = some i ↔ i ∈ m.interfaces ∧ i.name = name := by
  have hnodup := h.records
  rw [Model.records, List.map_append] at hnodup
  exact find?_key_eq_some_iff hnodup.of_append_right name i

end Model.HasDistinctNames

end SchemaBindings
