import SchemaBindings.Proofs.Sdl.Parsing

namespace SchemaBindings.Sdl

def Definition.type? : Definition → Option TypeDefinition
  | .type d | .typeExtension d => some d
  | .schema _ | .schemaExtension _ | .directive _ => none

def TypeDefinition.inputs (d : TypeDefinition) : List InputValueDefinition :=
  d.fields.flatMap (·.arguments) ++ d.inputFields

def TypeDefinition.references (d : TypeDefinition) : List TypeRef :=
  d.fields.map (·.type) ++ d.inputs.map (·.type)

namespace Sentence

variable {α β γ : Type} {G : Phrase α} {H : Phrase β} {K : Phrase γ}

/-- The parts of a tree are spelled by tokens that stand together among those of the tree. -/
def Contains (G : Phrase α) (H : Phrase β) (parts : α → List β) : Prop :=
  ∀ ⦃ts a⦄, G ts a → ∀ b ∈ parts a, ∃ us, us <:+: ts ∧ H us b

section Lists

variable {parts parts' : α → List β}

theorem Contains.append (h : Contains G H parts) (h' : Contains G H parts') :
    Contains G H fun a ↦ parts a ++ parts' a :=
  fun _ _ ha b hb ↦ (List.mem_append.mp hb).elim (h ha b) (h' ha b)

theorem Contains.trans {inner : β → List γ} (h : Contains G H parts) (h' : Contains H K inner) :
    Contains G K fun a ↦ (parts a).flatMap inner := by
  intro ts a ha c hc
  obtain ⟨b, hb, hc⟩ := List.mem_flatMap.mp hc
  obtain ⟨us, hus, hb⟩ := h ha b hb
  obtain ⟨vs, hvs, hc⟩ := h' hb c hc
  exact ⟨vs, hvs.trans hus, hc⟩

theorem contains_many : Contains (Many G) G id := by
  intro ts as hs
  induction hs with
  | nil => exact nofun
  | @cons ts us a as h _ ih =>
    intro b hb
    rcases List.mem_cons.mp hb with rfl | hb
    · exact ⟨ts, (List.prefix_append ts us).isInfix, h⟩
    · obtain ⟨vs, hvs, h⟩ := ih b hb
      exact ⟨vs, hvs.trans (List.suffix_append ts us).isInfix, h⟩

theorem contains_enclosed {opening closing : Punctuator} :
    Contains (Enclosed opening closing G) G id := by
  intro ts as hs a ha
  cases hs with
  | absent => cases ha
  | present h =>
    obtain ⟨-, hm, -⟩ := h
    obtain ⟨us, hus, h⟩ := contains_many hm a ha
    exact ⟨us, hus.trans (List.infix_append _ _ _), h⟩

end Lists

section Members

theorem contains_arguments : Contains IsField IsInputValue (·.arguments) := by
  intro ts f hf a ha
  obtain @⟨td, tn, ta, tt, ts, _, _, _, _, _, -, -, has, -, -⟩ := hf
  obtain ⟨us, hus, h⟩ := contains_enclosed has a ha
  exact ⟨us, hus.trans ⟨td ++ tn, tt ++ ts, by simp⟩, h⟩

theorem contains_fieldType : Contains IsField IsTypeRef fun f ↦ [f.type] := by
  intro ts f hf r hr
  obtain rfl := List.mem_singleton.mp hr
  obtain @⟨td, tn, ta, _, ts, _, _, _, _, _, -, -, -, ht, -⟩ := hf
  obtain @⟨c, tt, _, -, ht⟩ := ht
  exact ⟨tt, ⟨td ++ tn ++ ta ++ [c], ts, by simp⟩, ht⟩

theorem contains_inputType : Contains IsInputValue IsTypeRef fun a ↦ [a.type] := by
  intro ts a ha r hr
  obtain rfl := List.mem_singleton.mp hr
  obtain @⟨td, _, tv, ts, _, _, _, _, _, -, he, -, -⟩ := ha
  obtain @⟨tn, tt, c, _, _, -, -, ht⟩ := he
  exact ⟨tt, ⟨td ++ tn ++ [c], tv ++ ts, by simp⟩, ht⟩

theorem contains_default : Contains IsInputValue (IsValue true) (·.defaultValue.toList) := by
  intro ts a ha v hv
  obtain @⟨td, te, _, ts, _, _, _, _, _, -, -, hdefault, -⟩ := ha
  cases hdefault with
  | absent => cases hv
  | present h =>
    obtain @⟨e, tv, _, -, h⟩ := h
    obtain rfl := List.mem_singleton.mp hv
    exact ⟨tv, ⟨td ++ te ++ [e], ts, by simp⟩, h⟩

end Members

section Types

variable (d : Option Description)

theorem contains_fields : Contains (IsTypeDefinition d) IsField TypeDefinition.fields := by
  intro ts t ht f hf
  obtain @⟨t, k, tn, tb, n, ds, body, hk, hn, hb⟩ := ht
  cases hb with
  | @object ti tb is b hi hb =>
    obtain @⟨td, ta, _, fs, hd, ha⟩ := hb
    obtain ⟨us, hus, h⟩ := contains_enclosed ha f hf
    exact ⟨us, hus.trans ⟨[t] ++ tn ++ ti ++ td, [], by simp⟩, h⟩
  | @interface ti tb is b hi hb =>
    obtain @⟨td, ta, _, fs, hd, ha⟩ := hb
    obtain ⟨us, hus, h⟩ := contains_enclosed ha f hf
    exact ⟨us, hus.trans ⟨[t] ++ tn ++ ti ++ td, [], by simp⟩, h⟩
  | enum hb =>
    obtain ⟨-, -⟩ := hb
    cases hf
  | input hb =>
    obtain ⟨-, -⟩ := hb
    cases hf
  | union => cases hf
  | scalar => cases hf

theorem contains_inputFields :
    Contains (IsTypeDefinition d) IsInputValue TypeDefinition.inputFields := by
  intro ts t ht f hf
  obtain @⟨t, k, tn, tb, n, ds, body, hk, hn, hb⟩ := ht
  cases hb with
  | @input tb b hb =>
    obtain @⟨td, ta, _, fs, hd, ha⟩ := hb
    obtain ⟨us, hus, h⟩ := contains_enclosed ha f hf
    exact ⟨us, hus.trans ⟨[t] ++ tn ++ td, [], by simp⟩, h⟩
  | object _ hb =>
    obtain ⟨-, -⟩ := hb
    cases hf
  | interface _ hb =>
    obtain ⟨-, -⟩ := hb
    cases hf
  | enum hb =>
    obtain ⟨-, -⟩ := hb
    cases hf
  | union => cases hf
  | scalar => cases hf

theorem contains_inputs : Contains (IsTypeDefinition d) IsInputValue TypeDefinition.inputs :=
  ((contains_fields d).trans contains_arguments).append (contains_inputFields d)

theorem contains_references :
    Contains (IsTypeDefinition d) IsTypeRef TypeDefinition.references := by
  have h := ((contains_fields d).trans contains_fieldType).append
    ((contains_inputs d).trans contains_inputType)
  simp only [← List.map_eq_flatMap] at h
  exact h

end Types

theorem exists_infix_of_parse? {parts : TypeDefinition → List β}
    (hspan : ∀ t span, parts { t with span := span } = parts t)
    (hparts : ∀ d, Contains (IsTypeDefinition d) H parts) {text : List Char} {d : Document}
    (h : Document.parse? text = some ⟨d, []⟩) {x : Definition} (hx : x ∈ d.definitions)
    {t : TypeDefinition} (ht : x.type? = some t) {b : β} (hb : b ∈ parts t) :
    ∃ us, us <:+: tokens text ∧ H us b := by
  obtain ⟨-, hds⟩ := (exists_parse?_iff text d.definitions).mp ⟨d.span, h⟩
  obtain ⟨ts, hts, hdefinition⟩ := contains_many hds x hx
  cases hdefinition with
  | type _ htype =>
    cases ht
    obtain ⟨us, hus, hb⟩ := hparts _ htype b hb
    exact ⟨us, (hus.trans (List.suffix_append _ _).isInfix).trans hts, hb⟩
  | extension hextension =>
    cases hextension with
    | type _ htype =>
      cases ht
      rw [hspan] at hb
      obtain ⟨us, hus, hb⟩ := hparts _ htype b hb
      exact ⟨us, (hus.trans (List.suffix_append _ _).isInfix).trans hts, hb⟩
    | schema => cases ht
  | schema => cases ht
  | directive => cases ht

end Sentence

end SchemaBindings.Sdl
