import SchemaBindings.Proofs.Sdl.Tokens

namespace SchemaBindings.Sdl

open Text

theorem not_isBlank_of_toNat {c : Char} (h : 0x20 < c.toNat) (h' : c.toNat < 0x85) :
    ¬ isBlank c := by
  simp only [isBlank, Bool.or_eq_true, Bool.and_eq_true, decide_eq_true_eq, beq_iff_eq]
  omega

theorem not_isBlank_of_isDigit {c : Char} (h : c.isDigit) : ¬ isBlank c := by
  simp only [Char.isDigit, Bool.and_eq_true, decide_eq_true_eq, UInt32.le_iff_toNat_le, ge_iff_le,
    Char.reduceVal, UInt32.reduceToNat] at h
  exact not_isBlank_of_toNat (Nat.lt_of_lt_of_le (by decide) h.1)
    (Nat.lt_of_le_of_lt h.2 (by decide))

theorem not_isBlank_of_isNameChar {c : Char} (h : isNameChar c) : ¬ isBlank c := by
  have hchar : isNameChar c = ((decide ('A'.val ≤ c.val ∧ c.val ≤ 'Z'.val) ||
      (decide ('a'.val ≤ c.val) && decide (c.val ≤ 'z'.val)) || c.isDigit) || c == '_') := rfl
  simp only [hchar, Bool.or_eq_true, Bool.and_eq_true, decide_eq_true_eq, UInt32.le_iff_toNat_le,
    Char.reduceVal, UInt32.reduceToNat, beq_iff_eq] at h
  rcases h with ((h | h) | h) | rfl
  · exact not_isBlank_of_toNat (Nat.lt_of_lt_of_le (by decide) h.1)
      (Nat.lt_of_le_of_lt h.2 (by decide))
  · exact not_isBlank_of_toNat (Nat.lt_of_lt_of_le (by decide) h.1)
      (Nat.lt_of_le_of_lt h.2 (by decide))
  · exact not_isBlank_of_isDigit h
  · decide

theorem isNameChar_of_isNameStart {c : Char} (h : isNameStart c) : isNameChar c := by
  have hchar : isNameChar c = ((c.isAlpha || c.isDigit) || c == '_') := rfl
  rw [isNameStart, Bool.or_eq_true] at h
  rw [hchar]
  rcases h with h | h <;> simp [h]

theorem not_isBlank_of_mem_text (p : Punctuator) : ∀ c ∈ p.text.toList, ¬ isBlank c := by
  have h : (p.text.toList.all fun c ↦ !isBlank c) = true := by cases p <;> decide
  simpa using List.all_eq_true.mp h

theorem kind_scanString_ne (cs : List Char) : (scanString cs).kind ≠ none := by
  fun_induction scanString cs with
  | case1 => simp
  | case2 => simp
  | case3 _ cs rest ih => exact ih
  | case4 => simp
  | case5 => simp
  | case6 c cs _ _ _ _ rest ih => exact ih

theorem kind_scanBlockString_ne (cs : List Char) : (scanBlockString cs).kind ≠ none := by
  fun_induction scanBlockString cs with
  | case1 => simp
  | case2 => simp
  | case3 cs rest ih => exact ih
  | case4 c cs _ _ rest ih => exact ih

theorem kind_scanNumber_ne (first : Char) (cs : List Char) : (scanNumber first cs).kind ≠ none := by
  unfold scanNumber
  simp only
  repeat' split
  all_goals simp

theorem kind_scanName_ne (first : Char) (cs : List Char) : (scanName first cs).kind ≠ none := by
  unfold scanName
  simp only
  split <;> simp

theorem getLast?_scanString {cs : List Char} {k : TokenKind} (hk : (scanString cs).kind = some k)
    (hf : ¬ k.isFault) : (cs.take (scanString cs).more).getLast? = some '"' := by
  fun_induction scanString cs with
  | case1 => cases hk; simp [TokenKind.isFault] at hf
  | case2 => cases hk; simp [TokenKind.isFault] at hf
  | case3 d cs rest ih => simp [List.getLast?_cons, rest, ih hk]
  | case4 c cs _ _ hc => simp_all
  | case5 => cases hk; simp [TokenKind.isFault] at hf
  | case6 c cs _ _ _ _ rest ih => simp [List.getLast?_cons, rest, ih hk]

theorem getLast?_scanBlockString {cs : List Char} {k : TokenKind}
    (hk : (scanBlockString cs).kind = some k) (hf : ¬ k.isFault) :
    (cs.take (scanBlockString cs).more).getLast? = some '"' := by
  fun_induction scanBlockString cs with
  | case1 => cases hk; simp [TokenKind.isFault] at hf
  | case2 => rfl
  | case3 cs rest ih => simp [List.getLast?_cons, rest, ih hk]
  | case4 c cs _ _ rest ih => simp [List.getLast?_cons, rest, ih hk]

theorem take_countWhile (p : Char → Bool) (cs : List Char) :
    cs.take (countWhile p cs) = cs.takeWhile p :=
  (List.prefix_iff_eq_take.mp (List.takeWhile_prefix p)).symm

theorem more_scanName (c : Char) (cs : List Char) :
    (scanName c cs).more = countWhile isNameChar cs := by
  unfold scanName
  simp only
  split <;> rfl

theorem not_isBlank_of_mem_digits {cs : List Char} {d : Char}
    (h : d ∈ cs.take (countWhile Char.isDigit cs)) : ¬ isBlank d := by
  rw [take_countWhile] at h
  exact not_isBlank_of_isDigit (List.all_eq_true.mp List.all_takeWhile d h)

theorem not_isBlank_of_mem_fraction {cs : List Char} {d : Char}
    (h : d ∈ cs.take (fractionLength cs)) : ¬ isBlank d := by
  unfold fractionLength at h
  split at h
  · split at h
    · simp at h
    · rw [Nat.add_comm, List.take_succ_cons, List.mem_cons] at h
      rcases h with rfl | h
      · decide
      · exact not_isBlank_of_mem_digits h
  · simp at h

theorem not_isBlank_of_mem_exponentMark {cs : List Char} {d : Char}
    (h : d ∈ cs.take (exponentMarkLength cs)) : ¬ isBlank d := by
  cases cs with
  | nil => simp at h
  | cons c cs =>
    by_cases hc : c == 'e' || c == 'E'
    · have hmark : ¬ isBlank c := by
        simp only [Bool.or_eq_true, beq_iff_eq] at hc
        rcases hc with rfl | rfl <;> decide
      simp only [exponentMarkLength, hc, if_true] at h
      split at h
      · rcases (by simpa using h : d = c ∨ d = '+') with rfl | rfl
        · exact hmark
        · decide
      · rcases (by simpa using h : d = c ∨ d = '-') with rfl | rfl
        · exact hmark
        · decide
      · exact (by simpa using h : d = c) ▸ hmark
    · simp [exponentMarkLength, hc] at h

theorem not_isBlank_of_mem_scanNumber {first : Char} {cs : List Char} {d : Char}
    (h : d ∈ cs.take (scanNumber first cs).more) : ¬ isBlank d := by
  unfold scanNumber at h
  simp only at h
  generalize hw : countWhile Char.isDigit cs = whole at h
  generalize hf : fractionLength (cs.drop whole) = fraction at h
  generalize hm : exponentMarkLength (cs.drop (whole + fraction)) = mark at h
  generalize hd : countWhile Char.isDigit (cs.drop (whole + fraction + mark)) = digits at h
  generalize ht : (if mark = 0 then 0 else digits) = tail at h
  have htail (h : d ∈ (cs.drop (whole + fraction + mark)).take tail) : ¬ isBlank d := by
    rw [← ht] at h
    split at h
    · simp at h
    · exact not_isBlank_of_mem_digits (hd ▸ h)
  have hmem (h : d ∈ cs.take (whole + fraction + mark + tail)) : ¬ isBlank d := by
    simp only [List.take_add, List.mem_append] at h
    rcases h with ((h | h) | h) | h
    · exact not_isBlank_of_mem_digits (hw ▸ h)
    · exact not_isBlank_of_mem_fraction (hf ▸ h)
    · exact not_isBlank_of_mem_exponentMark (hm ▸ h)
    · exact htail h
  repeat' split at h
  · simp at h
  all_goals exact hmem h

theorem not_isBlank_of_getLast? {c d : Char} {cs : List Char} {k : TokenKind}
    (hk : (scan c cs).kind = some k) (hf : ¬ k.isFault)
    (hd : (cs.take (scan c cs).more).getLast? = some d) : ¬ isBlank d := by
  by_cases hsep : isSeparator c
  · simp [scan, hsep] at hk
  by_cases hcomment : c == '#'
  · simp [scan, hsep, hcomment] at hk
  by_cases hquote : c == '"'
  · simp only [scan, hsep, hcomment, hquote, Bool.false_eq_true, if_false, if_true] at hk hd
    revert hk hd
    split <;> intro hk hd
    · have hlast := getLast?_scanBlockString hk hf
      simp only [List.take_succ_cons, List.getLast?_cons, hlast, Option.getD_some] at hd
      cases hd
      decide
    · rw [getLast?_scanString hk hf] at hd
      cases hd
      decide
  by_cases hnumber : c == '-' || c.isDigit
  · simp only [scan, hsep, hcomment, hquote, hnumber, Bool.false_eq_true, if_false, if_true] at hd
    exact not_isBlank_of_mem_scanNumber (List.mem_of_getLast? hd)
  by_cases hname : isNameStart c
  · simp only [scan, hsep, hcomment, hquote, hnumber, hname, Bool.false_eq_true, if_false,
      if_true, more_scanName, take_countWhile] at hd
    have hmem := List.mem_of_getLast? hd
    exact not_isBlank_of_isNameChar (List.all_eq_true.mp List.all_takeWhile d hmem)
  simp only [scan, hsep, hcomment, hquote, hnumber, hname, Bool.false_eq_true, if_false] at hd
  split at hd
  · simp at hd
  · split at hd
    · obtain rfl : d = '.' := by simpa using List.mem_of_getLast? hd
      decide
    · simp at hd

theorem scan_kind_none {c : Char} {cs : List Char} (h : (scan c cs).kind = none) :
    isSeparator c ∧ (scan c cs).more = 0 ∨
      c = '#' ∧ (scan c cs).more = countWhile (fun d ↦ !isLineEnd d) cs := by
  by_cases hsep : isSeparator c
  · exact Or.inl ⟨hsep, by simp [scan, hsep]⟩
  by_cases hcomment : c == '#'
  · exact Or.inr ⟨by simpa using hcomment, by simp [scan, hsep, hcomment]⟩
  by_cases hquote : c == '"'
  · simp only [scan, hsep, hcomment, hquote, Bool.false_eq_true, if_false, if_true] at h
    split at h
    · exact absurd h (kind_scanBlockString_ne _)
    · exact absurd h (kind_scanString_ne _)
  by_cases hnumber : c == '-' || c.isDigit
  · simp only [scan, hsep, hcomment, hquote, hnumber, Bool.false_eq_true, if_false, if_true] at h
    exact absurd h (kind_scanNumber_ne _ _)
  by_cases hname : isNameStart c
  · simp only [scan, hsep, hcomment, hquote, hnumber, hname, Bool.false_eq_true, if_false,
      if_true] at h
    exact absurd h (kind_scanName_ne _ _)
  simp only [scan, hsep, hcomment, hquote, hnumber, hname, Bool.false_eq_true, if_false] at h
  repeat' split at h
  all_goals simp at h

theorem scan_of_isBlank {c : Char} (h : isBlank c) (cs : List Char) :
    (scan c cs).more = 0 ∧ ∀ k, (scan c cs).kind = some k → k.isFault := by
  have hne (d : Char) (hd : ¬ isBlank d) : (c == d) = false := by
    rw [beq_eq_false_iff_ne]
    rintro rfl
    exact hd h
  by_cases hsep : isSeparator c
  · simp [scan, hsep]
  have hnumber : (c == '-' || c.isDigit) = false := by
    rw [hne '-' (by decide), Bool.false_or]
    by_contra hd
    exact not_isBlank_of_isDigit (by simpa using hd) h
  have hname : isNameStart c = false := by
    by_contra hn
    exact not_isBlank_of_isNameChar (isNameChar_of_isNameStart (by simpa using hn)) h
  have hpunct : Punctuator.ofChar? c = none := by
    cases hp : Punctuator.ofChar? c with
    | none => rfl
    | some p => exact absurd h (not_isBlank_of_mem_text p c (by simp [text_ofChar? hp]))
  have hdot : c ≠ '.' := by
    rintro rfl
    exact absurd h (by decide)
  simp only [scan, hsep, hne '#' (by decide), hne '"' (by decide), hnumber, hname, hpunct,
    Bool.false_eq_true, if_false]
  split
  · exact absurd rfl hdot
  · exact ⟨rfl, by rintro k ⟨⟩; rfl⟩

end SchemaBindings.Sdl
