import SchemaBindings.Json.Reader
import SchemaBindings.Json.Writer
import Mathlib.Data.List.Basic

namespace SchemaBindings.Json

theorem hexDigits?_hexPair {n : Nat} (h : n < 32) :
    Text.hexDigits? ('0' :: '0' :: hexPair n) = some n := by
  have hall : ∀ n < 32, Text.hexDigits? ('0' :: '0' :: hexPair n) = some n := by decide
  exact hall n h

theorem stringUnits_escaped {c d : Char} {cs rest : List Char} {units : List Nat}
    (hd : d ≠ 'u') (hc : simpleEscape? d = some c) (h : stringUnits cs = some (units, rest)) :
    stringUnits ('\\' :: d :: cs) = some (c.toNat :: units, rest) := by
  rw [stringUnits]
  · simp [hc, h]
  · exact fun _ _ _ _ _ heq ↦ absurd heq hd

theorem stringUnits_plain {c : Char} {cs rest : List Char} {units : List Nat} (hquote : c ≠ '"')
    (hslash : c ≠ '\\') (hc : 0x20 ≤ c.toNat) (h : stringUnits cs = some (units, rest)) :
    stringUnits (c :: cs) = some (c.toNat :: units, rest) := by
  rw [stringUnits]
  · rw [if_neg (by omega)]
    simp [h]
  · exact hquote
  · exact fun _ _ _ _ _ heq _ ↦ hslash heq
  · exact fun _ _ heq _ ↦ hslash heq

theorem stringUnits_escapeChar (c : Char) {cs rest : List Char} {units : List Nat}
    (h : stringUnits cs = some (units, rest)) :
    stringUnits (escapeChar c ++ cs) = some (c.toNat :: units, rest) := by
  have hcode {n : Nat} (hn : (c.toNat == n) = true) : Char.ofNat n = c := by
    rw [← beq_iff_eq.mp hn, Char.ofNat_toNat]
  unfold escapeChar
  split_ifs with hquote hslash hfeed hreturn htab hback hform hcontrol
  · exact stringUnits_escaped (by decide) (congrArg some (beq_iff_eq.mp hquote).symm) h
  · exact stringUnits_escaped (by decide) (congrArg some (beq_iff_eq.mp hslash).symm) h
  · exact stringUnits_escaped (by decide) (congrArg some (beq_iff_eq.mp hfeed).symm) h
  · exact stringUnits_escaped (by decide) (congrArg some (beq_iff_eq.mp hreturn).symm) h
  · exact stringUnits_escaped (by decide) (congrArg some (beq_iff_eq.mp htab).symm) h
  · exact stringUnits_escaped (by decide) (congrArg some (hcode hback)) h
  · exact stringUnits_escaped (by decide) (congrArg some (hcode hform)) h
  · have hdigits := hexDigits?_hexPair hcontrol
    rw [hexPair] at hdigits ⊢
    simp only [List.cons_append, List.nil_append]
    rw [stringUnits, hdigits]
    simp [h]
  · exact stringUnits_plain (by simpa using hquote) (by simpa using hslash) (by omega) h

theorem stringUnits_flatMap (cs rest : List Char) :
    stringUnits (cs.flatMap escapeChar ++ '"' :: rest) = some (cs.map Char.toNat, rest) := by
  induction cs with
  | nil => rfl
  | cons c cs ih =>
    rw [List.flatMap_cons, List.append_assoc, List.map_cons]
    exact stringUnits_escapeChar c ih

theorem not_isSurrogate (c : Char) :
    isHighSurrogate c.toNat = false ∧ isLowSurrogate c.toNat = false := by
  have hvalid : c.toNat < 0xD800 ∨ 0xDFFF < c.toNat ∧ c.toNat < 0x110000 := c.valid
  simp only [isHighSurrogate, isLowSurrogate, Bool.and_eq_false_iff, decide_eq_false_iff_not]
  omega

theorem joinUnits_map (cs : List Char) : joinUnits (cs.map Char.toNat) = some cs := by
  induction cs with
  | nil => rfl
  | cons c cs ih =>
    obtain ⟨hhigh, hlow⟩ := not_isSurrogate c
    cases cs with
    | nil => simp [joinUnits, hhigh, hlow]
    | cons d ds =>
      rw [List.map_cons] at ih
      rw [List.map_cons, List.map_cons, joinUnits]
      simp [hhigh, hlow, ih]

theorem readString_quoteText (s : String) (rest : List Char) :
    readString (s.toList.flatMap escapeChar ++ '"' :: rest) = some (s, rest) := by
  simp [readString, stringUnits_flatMap, joinUnits_map]

/-- Whether a text does not go on with a number that stands before it. -/
def EndsNumber (rest : List Char) : Prop :=
  ∀ c ∈ rest.head?, c = ',' ∨ c = '\n'

theorem le_ofDigitChars (digits : List Char) (n : Nat) : n ≤ Nat.ofDigitChars 10 digits n := by
  induction digits generalizing n with
  | nil => exact Nat.le_refl n
  | cons c cs ih =>
    rw [Nat.ofDigitChars_cons]
    exact (Nat.le_trans (by omega) (ih _))

theorem collectDigits_eq (digits : List Char) (n count : Nat)
    (h : Nat.ofDigitChars 10 digits n ≤ maxUnsigned) :
    collectDigits n count digits =
      (Nat.ofDigitChars 10 digits n, count + digits.length, []) := by
  induction digits generalizing n count with
  | nil => rfl
  | cons c cs ih =>
    rw [Nat.ofDigitChars_cons] at h ⊢
    have hnext : 10 * n + (c.toNat - '0'.toNat) ≤ maxUnsigned :=
      Nat.le_trans (le_ofDigitChars cs _) h
    rw [collectDigits]
    simp only [if_pos hnext, ih _ _ h, List.length_cons]
    congr 2
    omega

theorem collectDigits_toDigits {n : Nat} (h : n ≤ maxUnsigned) :
    collectDigits 0 0 (Nat.toDigits 10 n) = (n, (Nat.toDigits 10 n).length, []) := by
  rw [collectDigits_eq _ _ _ (by rwa [Nat.ofDigitChars_ten_toDigits]),
    Nat.ofDigitChars_ten_toDigits, Nat.zero_add]

theorem isDigit_toDigits (n : Nat) : ∀ c ∈ Nat.toDigits 10 n, c.isDigit = true :=
  fun _ hc ↦ Nat.isDigit_of_mem_toDigits (by decide) (by decide) hc

theorem takeWhile_digits {digits rest : List Char} (hdigits : ∀ c ∈ digits, c.isDigit = true)
    (hrest : EndsNumber rest) :
    (digits ++ rest).takeWhile Char.isDigit = digits ∧
      (digits ++ rest).dropWhile Char.isDigit = rest := by
  have hstop : rest.takeWhile Char.isDigit = [] ∧ rest.dropWhile Char.isDigit = rest := by
    cases rest with
    | nil => exact ⟨rfl, rfl⟩
    | cons c cs => rcases hrest c rfl with rfl | rfl <;> exact ⟨rfl, rfl⟩
  rw [List.takeWhile_append_of_pos hdigits, List.dropWhile_append_of_pos hdigits, hstop.1, hstop.2,
    List.append_nil]
  exact ⟨rfl, rfl⟩

theorem eq_zero_of_head?_toDigits {n : Nat} (h : (Nat.toDigits 10 n).head? = some '0') :
    n = 0 := by
  induction n using Nat.strongRecOn with
  | _ n ih =>
    by_cases hn : n < 10
    · rw [Nat.toDigits_of_lt_base hn] at h
      have hall : ∀ n < 10, some (Nat.digitChar n) = some '0' → n = 0 := by decide
      exact hall n hn h
    · rw [Nat.toDigits_of_base_le (by decide) (by omega),
        List.head?_append_of_ne_nil _ Nat.toDigits_ne_nil] at h
      have hzero := ih (n / 10) (by omega) h
      omega

theorem readUnsigned_toDigits {negative : Bool} {n : Nat} (hn : n ≤ maxUnsigned) {rest : List Char}
    (hrest : EndsNumber rest) :
    readUnsigned negative (Nat.toDigits 10 n ++ rest) =
      readUnsigned.wholeNumber negative n [] rest := by
  obtain ⟨htake, hdrop⟩ := takeWhile_digits (isDigit_toDigits n) hrest
  have hfront : ¬ ((Nat.toDigits 10 n).isEmpty ||
      ((Nat.toDigits 10 n).head? == some '0' && decide ((Nat.toDigits 10 n).length ≠ 1))) := by
    intro h
    rw [Bool.or_eq_true, Bool.and_eq_true, List.isEmpty_iff, beq_iff_eq] at h
    rcases h with h | ⟨h, hlength⟩
    · exact Nat.toDigits_ne_nil h
    · rw [eq_zero_of_head?_toDigits h] at hlength
      exact absurd hlength (by decide)
  rw [readUnsigned]
  simp only [htake, hdrop, if_neg hfront, collectDigits_toDigits hn]
  cases rest with
  | nil => rfl
  | cons c cs => rcases hrest c rfl with rfl | rfl <;> rfl

theorem toList_toString_ofNat (n : Nat) :
    (toString (Int.ofNat n)).toList = Nat.toDigits 10 n :=
  Nat.toList_repr

theorem toList_toString_negSucc (n : Nat) :
    (toString (Int.negSucc n)).toList = '-' :: Nat.toDigits 10 (n + 1) := by
  have hrepr : toString (Int.negSucc n) = "-" ++ Nat.repr (n + 1) := rfl
  rw [hrepr, String.toList_append, Nat.toList_repr]
  rfl

def StartsNumber (c : Char) : Prop :=
  c = '-' ∨ c.isDigit = true

instance (c : Char) : Decidable (StartsNumber c) :=
  inferInstanceAs (Decidable (_ ∨ _))

theorem StartsNumber.ne {c d : Char} (h : StartsNumber c) (hd : ¬ StartsNumber d) : c ≠ d :=
  fun heq ↦ hd (heq ▸ h)

theorem exists_toString_eq_cons (n : Int) :
    ∃ c cs, (toString n).toList = c :: cs ∧ StartsNumber c := by
  cases n with
  | ofNat n =>
    obtain ⟨c, cs, hcs⟩ := List.exists_cons_of_ne_nil (Nat.toDigits_ne_nil (b := 10) (n := n))
    exact ⟨c, cs, (toList_toString_ofNat n).trans hcs,
      .inr (isDigit_toDigits n c (hcs ▸ List.mem_cons_self))⟩
  | negSucc n => exact ⟨'-', _, toList_toString_negSucc n, .inl rfl⟩

theorem readNumber_toString {n : Int} (hmin : -(maxNegative : Int) ≤ n) (hmax : n ≤ maxUnsigned)
    {rest : List Char} (hrest : EndsNumber rest) :
    readNumber ((toString n).toList ++ rest) = some (.int n, rest) := by
  cases n with
  | ofNat n =>
    have hn : n ≤ maxUnsigned := Int.ofNat_le.mp hmax
    rw [toList_toString_ofNat, readNumber, readUnsigned_toDigits hn hrest]
    · rfl
    · intro cs hcs
      have hminus : '-' ∈ Nat.toDigits 10 n := by
        have hhead : (Nat.toDigits 10 n ++ rest).head? = (Nat.toDigits 10 n).head? :=
          List.head?_append_of_ne_nil _ Nat.toDigits_ne_nil
        rw [hcs] at hhead
        exact List.mem_of_mem_head? hhead.symm
      exact absurd (isDigit_toDigits n _ hminus) (by decide)
  | negSucc n =>
    have hn : n + 1 ≤ maxNegative := by omega
    have hmax : maxNegative ≤ maxUnsigned := by decide
    have hrange : ¬ (n + 1 = 0 ∨ maxNegative < n + 1) := by omega
    rw [toList_toString_negSucc, List.cons_append, readNumber,
      readUnsigned_toDigits (Nat.le_trans hn hmax) hrest, readUnsigned.wholeNumber,
      if_neg (by simp), if_neg (by simp), if_neg hrange]
    rfl

end SchemaBindings.Json
