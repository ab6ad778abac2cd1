import SchemaBindings.Proofs.Schema.InputCycles
import SchemaBindings.Proofs.Schema.Merging

namespace SchemaBindings

open Sdl

namespace Sdl.TypeDefinition

theorem fields_eq_nil (d : TypeDefinition) (h : d.kind ≠ .object) (h' : d.kind ≠ .interface) :
    d.fields = [] := by
  rcases d with ⟨_, _, _, body, _⟩
  cases body with
  | object => exact absurd rfl h
  | interface => exact absurd rfl h'
  | _ => rfl

theorem implements_eq_nil (d : TypeDefinition) (h : d.kind ≠ .object) (h' : d.kind ≠ .interface) :
    d.implements = [] := by
  rcases d with ⟨_, _, _, body, _⟩
  cases body with
  | object => exact absurd rfl h
  | interface => exact absurd rfl h'
  | _ => rfl

theorem inputFields_eq_nil (d : TypeDefinition) (h : d.kind ≠ .inputObject) :
    d.inputFields = [] := by
  rcases d with ⟨_, _, _, body, _⟩
  cases body with
  | input => exact absurd rfl h
  | _ => rfl

theorem values_eq_nil (d : TypeDefinition) (h : d.kind ≠ .enum) : d.values = [] := by
  rcases d with ⟨_, _, _, body, _⟩
  cases body with
  | enum => exact absurd rfl h
  | _ => rfl

theorem members_eq_nil (d : TypeDefinition) (h : d.kind ≠ .union) : d.members = [] := by
  rcases d with ⟨_, _, _, body, _⟩
  cases body with
  | union => exact absurd rfl h
  | _ => rfl

end Sdl.TypeDefinition

namespace Validation

section Repeats

variable {α : Type} {name : α → String} {check : Bool → α → List SchemaIssue}

theorem withRepeats_go_eq_nil_iff (items : List α) (hrepeat : ∀ a ∈ items, check true a ≠ [])
    (seen : List String) :
    withRepeats.go name check seen items = [] ↔
      (∀ a ∈ items, name a ∉ seen) ∧ (items.map name).Nodup ∧ ∀ a ∈ items, check false a = [] := by
  induction items generalizing seen with
  | nil => simp [withRepeats.go]
  | cons a items ih =>
    rw [withRepeats.go, List.append_eq_nil_iff, ih fun b hb ↦ hrepeat b (by simp [hb])]
    by_cases ha : name a ∈ seen
    · simp [ha, hrepeat a (by simp)]
    · simp only [List.contains_eq_mem, ha, decide_false, List.mem_cons, forall_eq_or_imp,
        not_false_iff, true_and, List.map_cons, List.nodup_cons, not_or, List.mem_map, not_exists,
        not_and]
      constructor
      · intro h
        obtain ⟨hc, hseen, hnd, hall⟩ := h
        exact ⟨fun b hb ↦ (hseen b hb).2, ⟨fun b hb ↦ (hseen b hb).1, hnd⟩, hc, hall⟩
      · intro h
        obtain ⟨hseen, ⟨hne, hnd⟩, hc, hall⟩ := h
        exact ⟨hc, fun b hb ↦ ⟨hne b hb, hseen b hb⟩, hnd, hall⟩

theorem withRepeats_eq_nil_iff (items : List α) (hrepeat : ∀ a ∈ items, check true a ≠ []) :
    withRepeats name check items = [] ↔
      (items.map name).Nodup ∧ ∀ a ∈ items, check false a = [] := by
  simp [withRepeats, withRepeats_go_eq_nil_iff items hrepeat]

end Repeats

theorem checkValues_eq_nil_iff (t : SchemaType) :
    checkValues t = [] ↔ (t.values.map (·.2.name.text)).Nodup := by
  rw [checkValues, withRepeats_eq_nil_iff _ (by simp)]
  simp

variable {types : List SchemaType} (hn : (types.map (·.name)).Nodup)
  (hb : ∀ t ∈ types, t.name ∉ builtinScalars)

include hn hb

theorem checkReference_output_eq_nil_iff (file : Nat) (t : TypeRef) (owner : String) :
    checkReference types file t owner false = [] ↔ OutputReference types t := by
  simp only [OutputReference, ← kindOf?_eq_some_iff hn hb]
  unfold checkReference
  cases kindOf? types t.name with
  | none => simp
  | some kind => cases kind <;> simp [TypeKind.isOutput]

theorem checkReference_input_eq_nil_iff (file : Nat) (t : TypeRef) (owner : String) :
    checkReference types file t owner true = [] ↔ InputReference types t := by
  simp only [InputReference, ← kindOf?_eq_some_iff hn hb]
  unfold checkReference
  cases kindOf? types t.name with
  | none => simp
  | some kind => cases kind <;> simp [TypeKind.isInput]

theorem checkImplements_eq_nil_iff (t : SchemaType) :
    checkImplements types t = [] ↔
      (t.implements.map (·.2.text)).Nodup ∧
        ∀ n ∈ t.implements, Refers types n.2.text .interface := by
  rw [checkImplements, withRepeats_eq_nil_iff _ (by simp)]
  refine and_congr_right fun _ ↦ forall₂_congr fun n _ ↦ ?_
  rw [← kindOf?_eq_some_iff hn hb]
  cases hk : kindOf? types n.2.text with
  | none => simp [hk]
  | some kind => cases kind <;> simp [hk]

theorem checkMembers_eq_nil_iff (t : SchemaType) :
    checkMembers types t = [] ↔
      (t.members.map (·.2.text)).Nodup ∧ ∀ n ∈ t.members, Refers types n.2.text .object := by
  rw [checkMembers, withRepeats_eq_nil_iff _ (by simp)]
  refine and_congr_right fun _ ↦ forall₂_congr fun n _ ↦ ?_
  rw [← kindOf?_eq_some_iff hn hb]
  cases hk : kindOf? types n.2.text with
  | none => simp [hk]
  | some kind => cases kind <;> simp [hk]

theorem checkArguments_eq_nil_iff (file : Nat) (owner : String)
    (arguments : List InputValueDefinition) :
    checkArguments types file owner arguments = [] ↔
      (arguments.map (·.name.text)).Nodup ∧ ∀ a ∈ arguments, InputReference types a.type := by
  rw [checkArguments, withRepeats_eq_nil_iff _ (by simp)]
  simp [checkReference_input_eq_nil_iff hn hb]

theorem checkFields_eq_nil_iff (t : SchemaType) :
    checkFields types t = [] ↔
      (t.fields.map (·.2.name.text)).Nodup ∧ ∀ f ∈ t.fields, OutputReference types f.2.type ∧
        (f.2.arguments.map (·.name.text)).Nodup ∧
        ∀ a ∈ f.2.arguments, InputReference types a.type := by
  rw [checkFields, withRepeats_eq_nil_iff _ (by simp)]
  simp [checkReference_output_eq_nil_iff hn hb, checkArguments_eq_nil_iff hn hb]

theorem checkInputFields_eq_nil_iff (t : SchemaType) :
    checkInputFields types t = [] ↔
      (t.inputFields.map (·.2.name.text)).Nodup ∧
        ∀ f ∈ t.inputFields, InputReference types f.2.type := by
  rw [checkInputFields, withRepeats_eq_nil_iff _ (by simp)]
  simp [checkReference_input_eq_nil_iff hn hb]

omit hn hb in
theorem checkContent_eq_nil_iff (t : SchemaType) : checkContent t = [] ↔ t.HasContent := by
  unfold checkContent contentCount? SchemaType.HasContent
  cases t.kind <;> simp [List.length_eq_zero_iff]

theorem checkType_eq_nil_iff (t : SchemaType) (hkind : ∀ p ∈ t.parts, p.definition.kind = t.kind) :
    checkType types t = [] ↔ t.WellFormed types := by
  have hempty {α : Type} (items : TypeDefinition → List α)
      (h : ∀ d : TypeDefinition, d.kind = t.kind → items d = []) : t.collect items = [] := by
    rw [SchemaType.collect, List.flatMap_eq_nil_iff]
    intro p hp
    simp [h p.definition (hkind p hp)]
  have hfields (h : t.kind ≠ .object) (h' : t.kind ≠ .interface) : t.fields = [] :=
    hempty _ fun d hd ↦ d.fields_eq_nil (hd ▸ h) (hd ▸ h')
  have himplements (h : t.kind ≠ .object) (h' : t.kind ≠ .interface) : t.implements = [] :=
    hempty _ fun d hd ↦ d.implements_eq_nil (hd ▸ h) (hd ▸ h')
  have hinputs (h : t.kind ≠ .inputObject) : t.inputFields = [] :=
    hempty _ fun d hd ↦ d.inputFields_eq_nil (hd ▸ h)
  have hvalues (h : t.kind ≠ .enum) : t.values = [] :=
    hempty _ fun d hd ↦ d.values_eq_nil (hd ▸ h)
  have hmembers (h : t.kind ≠ .union) : t.members = [] :=
    hempty _ fun d hd ↦ d.members_eq_nil (hd ▸ h)
  rw [checkType, List.append_eq_nil_iff, checkContent_eq_nil_iff]
  have hrecord (hi : t.inputFields = []) (hv : t.values = []) (hm : t.members = []) :
      checkImplements types t ++ checkFields types t = [] ∧ t.HasContent ↔ t.WellFormed types := by
    simp only [List.append_eq_nil_iff, checkImplements_eq_nil_iff hn hb,
      checkFields_eq_nil_iff hn hb]
    constructor
    · intro hs
      obtain ⟨⟨⟨himp, href⟩, hnd, hf⟩, hc⟩ := hs
      exact ⟨hc, hnd, fun f hf' ↦ (hf f hf').2.1, by simp [hi], by simp [hv], by simp [hm], himp,
        fun f hf' ↦ (hf f hf').1, fun f hf' ↦ (hf f hf').2.2, by simp [hi], href, by simp [hm]⟩
    · intro h
      exact ⟨⟨⟨h.implements_nodup, h.implements_interfaces⟩, h.fields_nodup, fun f hf ↦
        ⟨h.field_types f hf, h.arguments_nodup f hf, h.argument_types f hf⟩⟩, h.content⟩
  cases hk : t.kind with
  | object =>
    exact hrecord (hinputs (by simp [hk])) (hvalues (by simp [hk])) (hmembers (by simp [hk]))
  | interface =>
    exact hrecord (hinputs (by simp [hk])) (hvalues (by simp [hk])) (hmembers (by simp [hk]))
  | union =>
    have hf := hfields (by simp [hk]) (by simp [hk])
    have hp := himplements (by simp [hk]) (by simp [hk])
    have hi := hinputs (by simp [hk])
    have hv := hvalues (by simp [hk])
    simp only [checkMembers_eq_nil_iff hn hb]
    constructor
    · intro hs
      obtain ⟨⟨hnd, href⟩, hc⟩ := hs
      exact ⟨hc, by simp [hf], by simp [hf], by simp [hi], by simp [hv], hnd, by simp [hp],
        by simp [hf], by simp [hf], by simp [hi], by simp [hp], href⟩
    · exact fun h ↦ ⟨⟨h.members_nodup, h.members_objects⟩, h.content⟩
  | enum =>
    have hf := hfields (by simp [hk]) (by simp [hk])
    have hp := himplements (by simp [hk]) (by simp [hk])
    have hi := hinputs (by simp [hk])
    have hm := hmembers (by simp [hk])
    simp only [checkValues_eq_nil_iff]
    constructor
    · intro hs
      obtain ⟨hnd, hc⟩ := hs
      exact ⟨hc, by simp [hf], by simp [hf], by simp [hi], hnd, by simp [hm], by simp [hp],
        by simp [hf], by simp [hf], by simp [hi], by simp [hp], by simp [hm]⟩
    · exact fun h ↦ ⟨h.values_nodup, h.content⟩
  | inputObject =>
    have hf := hfields (by simp [hk]) (by simp [hk])
    have hp := himplements (by simp [hk]) (by simp [hk])
    have hv := hvalues (by simp [hk])
    have hm := hmembers (by simp [hk])
    simp only [checkInputFields_eq_nil_iff hn hb]
    constructor
    · intro hs
      obtain ⟨⟨hnd, href⟩, hc⟩ := hs
      exact ⟨hc, by simp [hf], by simp [hf], hnd, by simp [hv], by simp [hm], by simp [hp],
        by simp [hf], by simp [hf], href, by simp [hp], by simp [hm]⟩
    · exact fun h ↦ ⟨⟨h.inputFields_nodup, h.inputField_types⟩, h.content⟩
  | scalar =>
    have hf := hfields (by simp [hk]) (by simp [hk])
    have hp := himplements (by simp [hk]) (by simp [hk])
    have hi := hinputs (by simp [hk])
    have hv := hvalues (by simp [hk])
    have hm := hmembers (by simp [hk])
    constructor
    · intro hs
      obtain ⟨-, hc⟩ := hs
      exact ⟨hc, by simp [hf], by simp [hf], by simp [hi], by simp [hv], by simp [hm], by simp [hp],
        by simp [hf], by simp [hf], by simp [hi], by simp [hp], by simp [hm]⟩
    · exact fun h ↦ ⟨rfl, h.content⟩

omit hb in
theorem mem_needs_iff (t : SchemaType) (ht : t ∈ types) (need : Need) :
    need ∈ needs types t.name ↔ need ∈ needsOf types t := by
  rw [needs, (findType?_eq_some_iff hn t.name t).mpr ⟨ht, rfl⟩]

theorem needs_iff_requires (a b : String) : Needs types a b ↔ Requires types a b := by
  constructor
  · intro h
    obtain ⟨need, hneed, rfl⟩ := h
    unfold needs at hneed
    cases hf : findType? types a with
    | none => simp [hf] at hneed
    | some t =>
      obtain ⟨ht, rfl⟩ := (findType?_eq_some_iff hn a t).mp hf
      simp only [hf, needsOf, List.mem_filterMap] at hneed
      obtain ⟨⟨file, f⟩, hmem, hneed⟩ := hneed
      split at hneed
      · rename_i target inner outer htype
        split at hneed
        · rename_i hk
          cases hneed
          exact ⟨t, ht, rfl, (kindOf?_eq_some_iff hn hb _ _).mp hk, _, hmem, inner, outer, htype⟩
        · cases hneed
      · cases hneed
  · intro h
    obtain ⟨t, ht, rfl, hk, ⟨file, f⟩, hmem, inner, outer, htype⟩ := h
    refine ⟨⟨file, f, b⟩, (mem_needs_iff hn t ht _).mpr ?_, rfl⟩
    have hkind := (kindOf?_eq_some_iff hn hb _ _).mpr hk
    exact List.mem_filterMap.mpr ⟨(file, f), hmem, by simp_all⟩

/-- Merged types have no issues exactly if all of them are well-formed and no input object requires
itself. -/
theorem validate_eq_nil_iff
    (hkind : ∀ t ∈ types, ∀ p ∈ t.parts, p.definition.kind = t.kind) :
    validate types = [] ↔ (∀ t ∈ types, t.WellFormed types) ∧
      ∀ name, ¬ Relation.TransGen (Requires types) name name := by
  have hrel : Needs types = Requires types := by
    funext a b
    exact propext (needs_iff_requires hn hb a b)
  rw [validate, List.append_eq_nil_iff, List.flatMap_eq_nil_iff, checkCycles_eq_nil_iff, hrel]
  exact and_congr_left fun _ ↦ forall₂_congr fun t ht ↦ checkType_eq_nil_iff hn hb t (hkind t ht)

end Validation

end SchemaBindings
