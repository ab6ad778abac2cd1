import SchemaBindings.Proofs.Sdl.Strings
import SchemaBindings.Text.Quoted

namespace SchemaBindings.Sdl

open Text

/-- The character is displayed so that it can be read back. -/
def IsKept (c : Char) : Prop :=
  c ∈ ['\t', '\r', '\n'] ∨ isVisible c = true

instance (c : Char) : Decidable (IsKept c) :=
  inferInstanceAs (Decidable (_ ∨ _))

theorem exists_writes_of_isKept {c : Char} (h : IsKept c) :
    ∃ f ∈ [CharForm.itself, .short], f.Writes c (quoteChar c) := by
  unfold quoteChar
  split_ifs with hzero htab hreturn hfeed hback hquote hvisible
  · have hnul : c = Char.ofNat 0 := by rw [← beq_iff_eq.mp hzero, Char.ofNat_toNat]
    subst hnul
    exact absurd h (by decide)
  · obtain rfl := beq_iff_eq.mp htab
    exact ⟨.short, by simp, .short (by decide)⟩
  · obtain rfl := beq_iff_eq.mp hreturn
    exact ⟨.short, by simp, .short (by decide)⟩
  · obtain rfl := beq_iff_eq.mp hfeed
    exact ⟨.short, by simp, .short (by decide)⟩
  · obtain rfl := beq_iff_eq.mp hback
    exact ⟨.short, by simp, .short (by decide)⟩
  · obtain rfl := beq_iff_eq.mp hquote
    exact ⟨.short, by simp, .short (by decide)⟩
  · refine ⟨.itself, by simp, .itself ?_⟩
    simp_all
  · simp_all [IsKept]

theorem unescape_quoteChar_of_isKept {c : Char} (h : IsKept c) (rest : List Char) :
    unescape (quoteChar c ++ rest) = c :: unescape rest := by
  obtain ⟨f, hf, hwrites⟩ := exists_writes_of_isKept h
  rw [hwrites.unescape_append]
  rcases List.mem_pair.mp hf with rfl | rfl
  · rfl
  · rfl

theorem quoteChar_of_not_isKept {c : Char} (h : ¬ IsKept c) :
    c = Char.ofNat 0 ∧ quoteChar c = ['\\', '0'] ∨
      quoteChar c = '\\' :: 'u' :: '\x7b' :: (hexText c.toNat ++ ['\x7d']) := by
  simp only [IsKept, List.mem_cons, List.not_mem_nil, or_false, not_or] at h
  obtain ⟨⟨htab, hreturn, hfeed⟩, hvisible⟩ := h
  by_cases hzero : c.toNat = 0
  · obtain rfl : c = Char.ofNat 0 := by rw [← hzero, Char.ofNat_toNat]
    exact Or.inl ⟨rfl, by decide⟩
  · have hback : c ≠ '\\' := fun he ↦ hvisible (he ▸ by decide)
    have hquote : c ≠ '"' := fun he ↦ hvisible (he ▸ by decide)
    exact Or.inr (by simp [quoteChar, hzero, htab, hreturn, hfeed, hback, hquote, hvisible])

theorem hexChar_brace (cs : List Char) : hexChar ('\x7b' :: cs) = '\ufffd' := by
  have hdigit : hexDigit? '\x7b' = none := by decide
  have hnumber : hexNumber? ('\x7b' :: cs) = none := by simp [hexNumber?, hexDigits?, hdigit]
  rw [hexChar, hnumber]

theorem head?_unescape_brace (cs : List Char) :
    (unescape ('\\' :: 'u' :: '\x7b' :: cs)).head? = some '\ufffd' := by
  rcases cs with _ | ⟨a, _ | ⟨b, _ | ⟨c, cs⟩⟩⟩
  all_goals simp [unescape, hexChar_brace]

theorem head?_unescape_quoteChar {c : Char} (h : ¬ IsKept c) (rest : List Char) :
    (unescape (quoteChar c ++ rest)).head? ≠ some c := by
  rcases quoteChar_of_not_isKept h with ⟨rfl, hquoted⟩ | hquoted
  · rw [hquoted, List.cons_append, List.cons_append, unescape_escaped (by decide), List.head?_cons]
    exact fun he ↦ absurd (Option.some.inj he) (by decide)
  · have hkept : IsKept '\ufffd' := by decide +kernel
    rw [hquoted, List.cons_append, List.cons_append, List.cons_append, head?_unescape_brace]
    exact fun he ↦ h (Option.some.inj he ▸ hkept)

/-- What is read for a string in the form in which it is displayed. -/
def reread (s : String) : String :=
  .ofList (unescape (s.toList.flatMap quoteChar))

theorem unescape_flatMap_eq_iff (cs : List Char) :
    unescape (cs.flatMap quoteChar) = cs ↔ ∀ c ∈ cs, IsKept c := by
  induction cs with
  | nil => exact ⟨nofun, fun _ ↦ rfl⟩
  | cons c cs ih =>
    rw [List.flatMap_cons, List.forall_mem_cons, ← ih]
    by_cases h : IsKept c
    · rw [unescape_quoteChar_of_isKept h, List.cons_inj_right]
      exact (and_iff_right h).symm
    · refine iff_of_false (fun heq ↦ ?_) (fun hall ↦ h hall.1)
      exact head?_unescape_quoteChar h (cs.flatMap quoteChar) (by rw [heq, List.head?_cons])

theorem reread_eq_iff (s : String) : reread s = s ↔ ∀ c ∈ s.toList, IsKept c := by
  rw [reread, ← String.toList_inj, String.toList_ofList, unescape_flatMap_eq_iff]

theorem StaysOpen.append {cs ds : List Char} (h : StaysOpen cs) (h' : StaysOpen ds) :
    StaysOpen (cs ++ ds) := by
  induction h with
  | nil => exact h'
  | escape _ ih => exact .escape ih
  | char hc _ ih => exact .char hc ih

theorem staysOpen_of_forall {cs : List Char} (h : ∀ c ∈ cs, c ∉ ['\\', '"', '\n', '\r']) :
    StaysOpen cs := by
  induction cs with
  | nil => exact .nil
  | cons c cs ih =>
    obtain ⟨hc, hcs⟩ := List.forall_mem_cons.mp h
    exact .char hc (ih hcs)

theorem exists_digit_of_mem_hexText {n : Nat} {c : Char} (h : c ∈ hexText n) :
    ∃ k < 16, c = Nat.digitChar k := by
  rw [hexText] at h
  induction n using Nat.strongRecOn with
  | _ n ih =>
    by_cases hn : n < 16
    · rw [Nat.toDigits_of_lt_base hn, List.mem_singleton] at h
      exact ⟨n, hn, h⟩
    · rw [Nat.toDigits_of_base_le (by decide) (by omega), List.mem_append] at h
      rcases h with h | h
      · exact ih (n / 16) (by omega) h
      · exact ⟨n % 16, by omega, List.mem_singleton.mp h⟩

theorem staysOpen_quoteChar (c : Char) : StaysOpen (quoteChar c) := by
  by_cases h : IsKept c
  · obtain ⟨f, hf, hwrites⟩ := exists_writes_of_isKept h
    rcases List.mem_pair.mp hf with rfl | rfl
    · generalize quoteChar c = w at hwrites
      obtain ⟨hc⟩ := hwrites
      exact .char (by simp_all) .nil
    · generalize quoteChar c = w at hwrites
      obtain ⟨-⟩ := hwrites
      exact .escape .nil
  · rcases quoteChar_of_not_isKept h with ⟨-, hquoted⟩ | hquoted
    · exact hquoted ▸ .escape .nil
    · rw [hquoted]
      refine .escape (.char (by decide) ((staysOpen_of_forall fun d hd ↦ ?_).append ?_))
      · obtain ⟨k, hk, rfl⟩ := exists_digit_of_mem_hexText hd
        have hall : ∀ k < 16, Nat.digitChar k ∉ ['\\', '"', '\n', '\r'] := by decide
        exact hall k hk
      · exact .char (by decide) .nil

theorem staysOpen_flatMap (cs : List Char) : StaysOpen (cs.flatMap quoteChar) := by
  induction cs with
  | nil => exact .nil
  | cons c cs ih => exact (staysOpen_quoteChar c).append ih

end SchemaBindings.Sdl
