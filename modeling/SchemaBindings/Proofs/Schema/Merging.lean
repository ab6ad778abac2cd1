import SchemaBindings.Proofs.Attempt
import SchemaBindings.Proofs.Schema.WellFormed
import Mathlib.Data.List.Nodup

namespace SchemaBindings

open Sdl

@[simp] theorem SchemaType.name_mk (part : TypePart) (extensions : List TypePart) :
    (⟨part, extensions⟩ : SchemaType).name = part.definition.name.text := rfl

@[simp] theorem SchemaType.kind_mk (part : TypePart) (extensions : List TypePart) :
    (⟨part, extensions⟩ : SchemaType).kind = part.definition.kind := rfl

section Lookup

theorem find?_key_eq_some_iff {α : Type} {key : α → String} {as : List α} (h : (as.map key).Nodup)
    (k : String) (a : α) : as.find? (key · == k) = some a ↔ a ∈ as ∧ key a = k := by
  constructor
  · intro ha
    exact ⟨List.mem_of_find?_eq_some ha, by simpa using List.find?_some ha⟩
  · intro h'
    obtain ⟨ha, rfl⟩ := h'
    obtain ⟨b, hb⟩ : ∃ b, as.find? (key · == key a) = some b :=
      Option.isSome_iff_exists.mp (List.find?_isSome.mpr ⟨a, ha, by simp⟩)
    have hkey : key b = key a := by simpa using List.find?_some hb
    rw [hb, List.inj_on_of_nodup_map h (List.mem_of_find?_eq_some hb) ha hkey]

theorem exists_mem_key_iff {α : Type} {key : α → String} {as : List α} (h : (as.map key).Nodup)
    (k : String) (p : α → Prop) :
    (∃ a ∈ as, key a = k ∧ p a) ↔ ∃ a, as.find? (key · == k) = some a ∧ p a := by
  simp only [find?_key_eq_some_iff h, and_assoc]

variable {types : List SchemaType}

theorem findType?_eq_some_iff (h : (types.map (·.name)).Nodup) (name : String) (t : SchemaType) :
    findType? types name = some t ↔ t ∈ types ∧ t.name = name :=
  find?_key_eq_some_iff h name t

theorem findType?_eq_none_iff (name : String) :
    findType? types name = none ↔ name ∉ types.map (·.name) := by
  simp only [findType?, List.find?_eq_none, beq_iff_eq, List.mem_map]
  grind

theorem kindOf?_eq_some_iff (hn : (types.map (·.name)).Nodup)
    (hb : ∀ t ∈ types, t.name ∉ builtinScalars) (name : String) (kind : TypeKind) :
    kindOf? types name = some kind ↔ Refers types name kind := by
  by_cases hname : name ∈ builtinScalars
  · have he : kindOf? types name = some .scalar := by simp [kindOf?, isBuiltinScalar, hname]
    rw [he, Option.some_inj]
    constructor
    · rintro rfl
      exact .builtin hname
    · intro h
      cases h with
      | builtin => rfl
      | declared ht => exact absurd hname (hb _ ht)
  · have he : kindOf? types name = (findType? types name).map SchemaType.kind := by
      simp [kindOf?, isBuiltinScalar, hname]
    rw [he, Option.map_eq_some_iff]
    constructor
    · intro h'
      obtain ⟨t, ht, rfl⟩ := h'
      obtain ⟨hmem, rfl⟩ := (findType?_eq_some_iff hn name t).mp ht
      exact .declared hmem
    · intro h
      cases h with
      | builtin h => exact absurd h hname
      | @declared t ht => exact ⟨t, (findType?_eq_some_iff hn _ t).mpr ⟨ht, rfl⟩, rfl⟩

end Lookup

namespace Merge

theorem declare_eq_ok_iff (types types' : List SchemaType) (part : TypePart) :
    declare types part = .ok types' ↔
      part.definition.name.text ∉ builtinScalars ∧
        part.definition.name.text ∉ types.map (·.name) ∧ types' = types ++ [⟨part, []⟩] := by
  unfold declare
  by_cases hb : part.definition.name.text ∈ builtinScalars
  · simp [isBuiltinScalar, hb]
  · cases hf : findType? types part.definition.name.text with
    | none =>
      have hnew := (findType?_eq_none_iff _).mp hf
      simp only [isBuiltinScalar, List.contains_eq_mem, hb, decide_false, Bool.false_eq_true,
        if_false, hf, Except.ok.injEq, not_false_iff, hnew, true_and]
      exact eq_comm
    | some t =>
      have hold : part.definition.name.text ∈ types.map (·.name) := by
        by_contra h
        rw [(findType?_eq_none_iff _).mpr h] at hf
        cases hf
      simp [isBuiltinScalar, hb, hf, hold]

theorem foldlM_declare_eq_ok_iff (parts : List TypePart) (types types' : List SchemaType) :
    parts.foldlM declare types = .ok types' ↔
      (∀ p ∈ parts, p.definition.name.text ∉ builtinScalars) ∧
        (∀ p ∈ parts, p.definition.name.text ∉ types.map (·.name)) ∧
        (parts.map (·.definition.name.text)).Nodup ∧
        types' = types ++ parts.map (⟨·, []⟩) := by
  induction parts generalizing types with
  | nil =>
    rw [List.foldlM_nil, Attempt.pure_eq_ok_iff]
    simp [eq_comm]
  | cons part parts ih =>
    rw [List.foldlM_cons, Attempt.bind_eq_ok_iff]
    constructor
    · intro h'
      obtain ⟨next, hd, hr⟩ := h'
      obtain ⟨hb, hnew, rfl⟩ := (declare_eq_ok_iff _ _ _).mp hd
      obtain ⟨hbs, hnews, hnd, rfl⟩ := (ih _).mp hr
      refine ⟨by simpa using ⟨hb, hbs⟩, ?_, ?_, by simp⟩
      · intro p hp
        rcases List.mem_cons.mp hp with rfl | hp
        · exact hnew
        · intro h
          exact hnews p hp (by simp only [List.map_append, List.mem_append]; exact Or.inl h)
      · refine List.nodup_cons.mpr ⟨?_, hnd⟩
        intro h
        obtain ⟨p, hp, he⟩ := List.mem_map.mp h
        exact hnews p hp (by simp [he])
    · intro h'
      obtain ⟨hbs, hnews, hnd, rfl⟩ := h'
      refine ⟨types ++ [⟨part, []⟩], (declare_eq_ok_iff _ _ _).mpr
        ⟨hbs _ (by simp), hnews _ (by simp), rfl⟩, (ih _).mpr ⟨?_, ?_, ?_, by simp⟩⟩
      · exact fun p hp ↦ hbs p (by simp [hp])
      · intro p hp h
        rw [List.map_append, List.mem_append] at h
        rcases h with h | h
        · exact hnews p (by simp [hp]) h
        · have he : p.definition.name.text = part.definition.name.text := by simpa using h
          exact (List.nodup_cons.mp hnd).1 (List.mem_map.mpr ⟨p, hp, he⟩)
      · exact (List.nodup_cons.mp hnd).2

theorem name_addExtension (name : String) (part : TypePart) (types : List SchemaType) :
    (addExtension name part types).map (·.name) = types.map (·.name) := by
  simp only [addExtension, List.map_map]
  refine List.map_congr_left fun t _ ↦ ?_
  dsimp only [Function.comp_apply]
  split <;> rfl

theorem exists_mem_addExtension (name : String) (part : TypePart) (types : List SchemaType)
    (p : String → TypeKind → Prop) :
    (∃ t ∈ addExtension name part types, p t.name t.kind) ↔ ∃ t ∈ types, p t.name t.kind := by
  simp only [addExtension, List.mem_map, exists_exists_and_eq_and]
  refine exists_congr fun t ↦ and_congr_right fun _ ↦ ?_
  split <;> rfl

theorem extend_eq_ok_iff {types : List SchemaType} (hn : (types.map (·.name)).Nodup)
    (types' : List SchemaType) (part : TypePart) :
    extend types part = .ok types' ↔
      (∃ t ∈ types, t.name = part.definition.name.text ∧ t.kind = part.definition.kind) ∧
        types' = addExtension part.definition.name.text part types := by
  unfold extend
  cases hf : findType? types part.definition.name.text with
  | none =>
    have hnone := (findType?_eq_none_iff _).mp hf
    simp only [hf, reduceCtorEq, false_iff, not_and]
    intro h
    obtain ⟨t, ht, he, -⟩ := h
    exact absurd (List.mem_map.mpr ⟨t, ht, he⟩) hnone
  | some t =>
    obtain ⟨ht, he⟩ := (findType?_eq_some_iff hn _ t).mp hf
    have honly : (∃ u ∈ types, u.name = part.definition.name.text ∧
        u.kind = part.definition.kind) ↔ t.kind = part.definition.kind := by
      constructor
      · intro h
        obtain ⟨u, hu, hue, hk⟩ := h
        rwa [← List.inj_on_of_nodup_map hn hu ht (hue.trans he.symm)]
      · exact fun hk ↦ ⟨t, ht, he, hk⟩
    rw [honly]
    by_cases hk : t.kind = part.definition.kind
    · simp only [hf, hk, if_true, Except.ok.injEq, true_and]
      exact eq_comm
    · simp [hf, hk]

def extendedBy (parts : List TypePart) (t : SchemaType) : SchemaType :=
  { t with extensions := t.extensions ++ parts.filter (·.definition.name.text == t.name) }

theorem extendedBy_nil : extendedBy [] = id := by
  funext t
  simp [extendedBy]

theorem extendedBy_cons (part : TypePart) (parts : List TypePart) (types : List SchemaType) :
    (addExtension part.definition.name.text part types).map (extendedBy parts) =
      types.map (extendedBy (part :: parts)) := by
  simp only [addExtension, List.map_map]
  refine List.map_congr_left fun t _ ↦ ?_
  by_cases h : t.name = part.definition.name.text
  · have hname : SchemaType.name ⟨t.declaration, t.extensions ++ [part]⟩ = t.name := rfl
    simp [extendedBy, hname, h]
  · simp [extendedBy, h, Ne.symm h]

/-- Extending succeeds if every extension names a type of its kind, and then every type has the
extensions of its name in their order. -/
theorem foldlM_extend_eq_ok_iff (parts : List TypePart) {types : List SchemaType}
    (hn : (types.map (·.name)).Nodup) (types' : List SchemaType) :
    parts.foldlM extend types = .ok types' ↔
      (∀ e ∈ parts, ∃ t ∈ types, t.name = e.definition.name.text ∧
        t.kind = e.definition.kind) ∧
        types' = types.map (extendedBy parts) := by
  induction parts generalizing types with
  | nil =>
    rw [List.foldlM_nil, Attempt.pure_eq_ok_iff]
    simp [extendedBy_nil, eq_comm]
  | cons part parts ih =>
    have hnext := name_addExtension part.definition.name.text part types
    rw [List.foldlM_cons, Attempt.bind_eq_ok_iff]
    simp only [extend_eq_ok_iff hn, and_assoc, exists_eq_left, exists_and_left, List.mem_cons,
      forall_eq_or_imp]
    refine and_congr_right fun _ ↦ ?_
    rw [ih (hnext ▸ hn), extendedBy_cons]
    refine and_congr_left fun _ ↦ forall₂_congr fun e _ ↦ ?_
    exact exists_mem_addExtension _ _ _ fun name kind ↦
      name = e.definition.name.text ∧ kind = e.definition.kind

/-- Merging succeeds on declarations with new names and extensions that have a declaration of their
kind. -/
theorem types_eq_ok_iff (definitions : List Placed) (types' : List SchemaType) :
    types definitions = .ok types' ↔
      (∀ d ∈ declarations definitions, d.definition.name.text ∉ builtinScalars) ∧
        ((declarations definitions).map (·.definition.name.text)).Nodup ∧
        (∀ e ∈ extensions definitions, ∃ d ∈ declarations definitions,
          d.definition.name.text = e.definition.name.text ∧
            d.definition.kind = e.definition.kind) ∧
        types' = merged definitions := by
  have hnames : ((declarations definitions).map fun p ↦ (⟨p, []⟩ : SchemaType)).map (·.name) =
      (declarations definitions).map (·.definition.name.text) := by
    rw [List.map_map]
    rfl
  have hmerged : ((declarations definitions).map fun p ↦ (⟨p, []⟩ : SchemaType)).map
      (extendedBy (extensions definitions)) = merged definitions := by
    rw [List.map_map]
    rfl
  simp only [types, Attempt.bind_eq_ok_iff, foldlM_declare_eq_ok_iff, List.map_nil,
    List.not_mem_nil, not_false_iff, implies_true, true_and, List.nil_append]
  constructor
  · intro h
    obtain ⟨declared, ⟨hb, hnd, rfl⟩, he⟩ := h
    rw [foldlM_extend_eq_ok_iff _ (by rwa [hnames]), hmerged] at he
    refine ⟨hb, hnd, ?_, he.2⟩
    simpa using he.1
  · intro h
    obtain ⟨hb, hnd, he, rfl⟩ := h
    refine ⟨_, ⟨hb, hnd, rfl⟩, ?_⟩
    rw [foldlM_extend_eq_ok_iff _ (by rwa [hnames]), hmerged]
    refine ⟨?_, rfl⟩
    simpa using he

end Merge

end SchemaBindings
