import SchemaBindings.Target.ClassShape
import Mathlib.Data.List.DropRight

namespace SchemaBindings.Target

open Model

variable (t : Target)

/-- The default of the argument has a literal, or null is one of its values. -/
def Omissible (a : Argument) : Prop :=
  (∃ v literal, a.defaultValue = some v ∧ t.literal? v a.type = some literal) ∨
    a.type.isRequired = false

def omittedText (a : Argument) : String :=
  (a.defaultValue.bind fun v ↦ t.literal? v a.type).getD "null"

def requiredParameter (a : Argument) : String :=
  t.language.fieldName a.name ++ ": " ++ t.typeText a.type

def omissibleParameter (a : Argument) : String :=
  t.requiredParameter a ++ " = " ++ t.omittedText a

variable {t} {a : Argument} {fixed omissible : List Argument}

theorem parameterDefault?_eq_some_iff {text : String} :
    t.parameterDefault? a = some text ↔ t.Omissible a ∧ text = t.omittedText a := by
  have hliteral : (∃ v literal, a.defaultValue = some v ∧ t.literal? v a.type = some literal) ↔
      ∃ literal, (a.defaultValue.bind fun v ↦ t.literal? v a.type) = some literal := by
    simp only [Option.bind_eq_some_iff]
    exact exists_comm
  rw [Omissible, hliteral, omittedText, parameterDefault?]
  cases a.defaultValue.bind fun v ↦ t.literal? v a.type with
  | some literal => simp [@eq_comm _ text]
  | none => cases a.type.isRequired <;> simp [@eq_comm _ text]

theorem isSome_parameterDefault?_iff : (t.parameterDefault? a).isSome ↔ t.Omissible a := by
  simp [Option.isSome_iff_exists, parameterDefault?_eq_some_iff]

theorem parameterList_of_omissible (h : ∀ a ∈ omissible, t.Omissible a) :
    t.parameterList omissible = omissible.map t.omissibleParameter := by
  induction omissible with
  | nil => rfl
  | cons a omissible ih =>
    obtain ⟨ha, hrest⟩ := List.forall_mem_cons.mp h
    have hdefault := parameterDefault?_eq_some_iff.mpr ⟨ha, rfl⟩
    have hall : omissible.all fun b ↦ (t.parameterDefault? b).isSome := by
      apply List.all_eq_true.mpr
      intro b hb
      exact isSome_parameterDefault?_iff.mpr (hrest b hb)
    rw [parameterList_cons, ih hrest, hall]
    unfold declareParameter
    rw [hdefault]
    rfl

theorem parameterList_append (hfixed : ∀ a ∈ fixed.getLast?, ¬t.Omissible a)
    (h : ∀ a ∈ omissible, t.Omissible a) :
    t.parameterList (fixed ++ omissible) =
      fixed.map t.requiredParameter ++ omissible.map t.omissibleParameter := by
  induction fixed with
  | nil => exact parameterList_of_omissible h
  | cons a fixed ih =>
    have hblocked : t.Omissible a →
        ¬((fixed ++ omissible).all fun b ↦ (t.parameterDefault? b).isSome) := by
      intro ha hall
      obtain ⟨b, hb⟩ : ∃ b, (a :: fixed).getLast? = some b := ⟨_, List.getLast?_cons⟩
      apply hfixed b hb
      obtain rfl | hmem := List.mem_cons.mp (List.mem_of_getLast? hb)
      · exact ha
      · apply isSome_parameterDefault?_iff.mp
        exact List.all_eq_true.mp hall b (List.mem_append_left _ hmem)
    have hrest : ∀ b ∈ fixed.getLast?, ¬t.Omissible b := by
      intro b hb
      apply hfixed
      rw [List.getLast?_cons, Option.mem_def.mp hb]
      rfl
    rw [List.cons_append, parameterList_cons, ih hrest]
    unfold declareParameter
    cases hdefault : t.parameterDefault? a with
    | none => rfl
    | some text =>
      have ha := (parameterDefault?_eq_some_iff.mp hdefault).1
      rw [Bool.eq_false_iff.mpr (hblocked ha)]
      rfl

theorem omissible_from_iff {before after : List Argument}
    (hfixed : ∀ b ∈ fixed.getLast?, ¬t.Omissible b) (h : ∀ b ∈ omissible, t.Omissible b)
    (hsplit : fixed ++ omissible = before ++ a :: after) :
    after.length < omissible.length ↔ t.Omissible a ∧ ∀ b ∈ after, t.Omissible b := by
  have hsuffix : a :: after <:+ fixed ++ omissible := hsplit ▸ List.suffix_append _ _
  constructor
  · intro hlt
    have hback : a :: after <:+ omissible :=
      List.suffix_of_suffix_length_le hsuffix (List.suffix_append _ _) hlt
    apply List.forall_mem_cons.mp
    intro b hb
    exact h b (hback.mem hb)
  · intro hall
    by_contra hle
    obtain ⟨middle, hmiddle⟩ : omissible <:+ after :=
      List.suffix_of_suffix_length_le (List.suffix_append _ _)
        ((List.suffix_cons a after).trans hsuffix) (Nat.le_of_not_lt hle)
    have hfront : fixed ++ omissible = before ++ a :: middle ++ omissible := by
      rw [hsplit, List.append_assoc, List.cons_append, hmiddle]
    obtain ⟨b, hb⟩ : ∃ b, (a :: middle).getLast? = some b := ⟨_, List.getLast?_cons⟩
    have hlast : b ∈ fixed.getLast? := by
      rw [List.append_cancel_right hfront, List.getLast?_append, hb]
      rfl
    apply hfixed b hlast
    have hmem : b ∈ a :: after :=
      List.cons_subset_cons a (hmiddle ▸ List.subset_append_left _ _) (List.mem_of_getLast? hb)
    exact List.forall_mem_cons.mpr hall b hmem

variable (t) in
/-- Every list of arguments ends in a longest part that can be left out. -/
theorem exists_fixed_omissible (arguments : List Argument) :
    ∃ fixed omissible, arguments = fixed ++ omissible ∧
      (∀ a ∈ fixed.getLast?, ¬t.Omissible a) ∧ ∀ a ∈ omissible, t.Omissible a := by
  let hasDefault : Argument → Bool := fun a ↦ (t.parameterDefault? a).isSome
  refine ⟨arguments.rdropWhile hasDefault, arguments.rtakeWhile hasDefault,
    (List.rdropWhile_append_rtakeWhile ..).symm, ?_, ?_⟩
  · intro a ha hom
    obtain ⟨hne, rfl⟩ := List.mem_getLast?_eq_getLast ha
    exact List.rdropWhile_last_not hasDefault arguments hne (isSome_parameterDefault?_iff.mpr hom)
  · intro a ha
    exact isSome_parameterDefault?_iff.mp (List.mem_rtakeWhile_imp (p := hasDefault) ha)

/-- The parameters keep the order of the arguments. Those with a default stand at the end: an
argument is among them exactly if it can be left out together with all after it, so that they are
the longest end of the list that can be left out. -/
theorem parameters_eq_intercalate (t : Target) (arguments : List Argument) :
    ∃ fixed omissible, arguments = fixed ++ omissible ∧
      t.parameters arguments = ", ".intercalate
        (fixed.map t.requiredParameter ++ omissible.map t.omissibleParameter) ∧
      (∀ before a after, arguments = before ++ a :: after →
        (after.length < omissible.length ↔ t.Omissible a ∧ ∀ b ∈ after, t.Omissible b)) ∧
      ∀ back, back <:+ arguments → (∀ a ∈ back, t.Omissible a) → back <:+ omissible := by
  obtain ⟨fixed, omissible, rfl, hfixed, hom⟩ := t.exists_fixed_omissible arguments
  refine ⟨fixed, omissible, rfl, ?_, ?_, ?_⟩
  · rw [parameters, parameterList_append hfixed hom]
  · intro before a after hsplit
    exact omissible_from_iff hfixed hom hsplit
  · intro back hback hall
    apply List.suffix_of_suffix_length_le hback (List.suffix_append _ _)
    cases back with
    | nil => exact Nat.zero_le _
    | cons a after =>
      obtain ⟨before, hsplit⟩ := hback
      exact (omissible_from_iff hfixed hom hsplit.symm).mpr (List.forall_mem_cons.mp hall)

end SchemaBindings.Target
