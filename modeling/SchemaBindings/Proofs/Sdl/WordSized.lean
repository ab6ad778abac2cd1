import SchemaBindings.Number.Reading
import SchemaBindings.Proofs.Sdl.Parts

namespace SchemaBindings.Sdl

mutual

def Value.wholeNumbers : Value → List Int
  | .int n _ => [n]
  | .list items _ => Value.itemNumbers items
  | .object fields _ => Value.fieldNumbers fields
  | .variableRef _ | .float _ _ | .string _ _ | .boolean _ _ | .null _ | .enum _ => []

def Value.itemNumbers : List Value → List Int
  | [] => []
  | item :: items => item.wholeNumbers ++ Value.itemNumbers items

def Value.fieldNumbers : List (Name × Value) → List Int
  | [] => []
  | (_, value) :: fields => value.wholeNumbers ++ Value.fieldNumbers fields

end

def InputValueDefinition.IsWordSized (a : InputValueDefinition) : Prop :=
  ∀ v ∈ a.defaultValue, ∀ n ∈ v.wholeNumbers, isWord n = true

namespace Sentence

theorem isWord_of_bounds {n : Int} (h : -2 ^ 63 ≤ n ∧ n < 2 ^ 63) : isWord n = true := by
  rw [isWord, Bool.and_eq_true, decide_eq_true_iff, decide_eq_true_iff]
  omega

mutual

theorem isWord_of_isValue {constant : Bool} {v : Value} {ts : List Token}
    (h : IsValue constant ts v) : ∀ n ∈ v.wholeNumbers, isWord n = true := by
  match v with
  | .int n _ =>
    cases h with
    | int _ _ hw =>
      intro m hm
      rw [List.mem_singleton.mp hm]
      exact isWord_of_bounds hw
  | .list items _ =>
    cases h with
    | list h =>
      obtain ⟨-, hm, -⟩ := h
      exact isWord_of_items hm
  | .object fields _ =>
    cases h with
    | object h =>
      obtain ⟨-, hm, -⟩ := h
      exact isWord_of_fields hm
  | .variableRef _ | .float _ _ | .string _ _ | .boolean _ _ | .null _ | .enum _ => exact nofun

theorem isWord_of_items {constant : Bool} {items : List Value} {ts : List Token}
    (h : Many (IsValue constant) ts items) : ∀ n ∈ Value.itemNumbers items, isWord n = true := by
  match items with
  | [] => exact nofun
  | item :: items =>
    cases h with
    | cons h hs =>
      exact List.forall_mem_append.mpr ⟨isWord_of_isValue h, isWord_of_items hs⟩

theorem isWord_of_fields {constant : Bool} {fields : List (Name × Value)} {ts : List Token}
    (h : Many (Entry (IsValue constant)) ts fields) :
    ∀ n ∈ Value.fieldNumbers fields, isWord n = true := by
  match fields with
  | [] => exact nofun
  | (name, value) :: fields =>
    cases h with
    | cons h hs =>
      obtain ⟨-, -, hv⟩ := h
      exact List.forall_mem_append.mpr ⟨isWord_of_isValue hv, isWord_of_fields hs⟩

end

theorem isWordSized_of_isInputValue {ts : List Token} {a : InputValueDefinition}
    (h : IsInputValue ts a) : a.IsWordSized := by
  intro v hv
  obtain ⟨us, -, hvalue⟩ := contains_default h v (Option.mem_toList.mpr hv)
  exact isWord_of_isValue hvalue

end Sentence

theorem isWordSized_of_parse? {text : List Char} {d : Document}
    (h : Document.parse? text = some ⟨d, []⟩) {x : Definition} (hx : x ∈ d.definitions)
    {t : TypeDefinition} (ht : x.type? = some t) {a : InputValueDefinition} (ha : a ∈ t.inputs) :
    a.IsWordSized := by
  obtain ⟨us, -, hg⟩ :=
    Sentence.exists_infix_of_parse? (fun _ _ ↦ rfl) Sentence.contains_inputs h hx ht ha
  exact Sentence.isWordSized_of_isInputValue hg

end SchemaBindings.Sdl
