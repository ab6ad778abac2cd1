import SchemaBindings.Proofs.Sdl.Boundaries
import SchemaBindings.Proofs.Sdl.Joining

namespace SchemaBindings.Sdl

open Text

theorem endsWord_numberSign : EndsWord '#' :=
  ⟨by decide, by decide⟩

section NumberSign

variable {x : List Char} (y : List Char)

theorem scanString_cons {c : Char} (hc : c ≠ '\\') (cs : List Char) :
    scanString (c :: cs) = if c == '"' then ⟨some .string, 1⟩
      else if isLineEnd c then ⟨some .invalid, 0⟩
      else ⟨(scanString cs).kind, (scanString cs).more + 1⟩ := by
  rw [scanString]
  · exact fun he ↦ absurd he hc
  · exact fun _ _ he ↦ absurd he hc

theorem scanString_congr {cs : List Char} (h : (scanString (cs ++ '#' :: x)).more ≤ cs.length) :
    scanString (cs ++ '#' :: y) = scanString (cs ++ '#' :: x) := by
  fun_induction scanString cs with
  | case1 => simp [scanString_cons, isLineEnd] at h
  | case2 => simp [scanString] at h
  | case3 c cs found ih =>
    simp only [List.cons_append, scanString, List.length_cons] at h ⊢
    rw [ih (by omega)]
  | case4 c cs hend hescape hquote =>
    obtain rfl := beq_iff_eq.mp hquote
    rfl
  | case5 c cs hend hescape hquote hline =>
    have hc : c ≠ '\\' := by
      rintro rfl
      cases hline
    rw [List.cons_append, List.cons_append, scanString_cons hc, scanString_cons hc]
    simp [hquote, hline]
  | case6 c cs hend hescape hquote hline found ih =>
    have hc : c ≠ '\\' := by
      intro he
      cases cs with
      | nil => exact hend he rfl
      | cons d cs => exact hescape d cs he rfl
    simp only [List.cons_append, scanString_cons hc, hquote, hline, List.length_cons] at h ⊢
    rw [ih (by simpa using h)]

theorem scanBlockString_congr {cs : List Char}
    (h : (scanBlockString (cs ++ '#' :: x)).more ≤ cs.length) :
    scanBlockString (cs ++ '#' :: y) = scanBlockString (cs ++ '#' :: x) := by
  fun_induction scanBlockString cs with
  | case1 => simp [scanBlockString] at h
  | case2 => simp [scanBlockString]
  | case3 cs found ih =>
    simp only [List.cons_append, scanBlockString, List.length_cons] at h ⊢
    rw [ih (by omega)]
  | case4 c cs hclose hescape found ih =>
    have hother (z : List Char) : scanBlockString (c :: (cs ++ '#' :: z)) =
        ⟨(scanBlockString (cs ++ '#' :: z)).kind, (scanBlockString (cs ++ '#' :: z)).more + 1⟩ := by
      rw [scanBlockString]
      · intro tail hc h
        obtain ⟨tail, rfl⟩ := exists_eq_append_of_append_eq ['"', '"'] h (by decide)
        exact hclose tail hc rfl
      · intro tail hc h
        obtain ⟨tail, rfl⟩ := exists_eq_append_of_append_eq ['"', '"', '"'] h (by decide)
        exact hescape tail hc rfl
    rw [List.cons_append, hother, List.length_cons] at h
    rw [List.cons_append, List.cons_append, hother, hother, ih (by simpa using h)]

theorem countWhile_congr {p : Char → Bool} (hp : p '#') {cs : List Char}
    (h : countWhile p (cs ++ '#' :: x) ≤ cs.length) :
    countWhile p (cs ++ '#' :: y) = countWhile p (cs ++ '#' :: x) := by
  have hstop : (cs.takeWhile p).length ≠ cs.length := by
    intro hall
    rw [countWhile, List.takeWhile_append, if_pos hall, List.takeWhile_cons_of_pos hp] at h
    simp at h
  rw [countWhile, countWhile, List.takeWhile_append, List.takeWhile_append, if_neg hstop,
    if_neg hstop]

/-- What a text begins with, if it ends before a number sign, does not depend on what follows
there. -/
theorem scan_congr {c : Char} {cs : List Char}
    (h : (scan c (cs ++ '#' :: x)).more ≤ cs.length) :
    scan c (cs ++ '#' :: y) = scan c (cs ++ '#' :: x) := by
  by_cases hsep : isSeparator c
  · simp [scan, hsep]
  by_cases hcomment : c == '#'
  · simp only [scan, hsep, hcomment, Bool.false_eq_true, if_false, if_true] at h ⊢
    rw [countWhile_congr y (by decide) h]
  by_cases hquote : c == '"'
  · simp only [scan, hsep, hcomment, hquote, Bool.false_eq_true, if_false, if_true] at h ⊢
    by_cases hblock : ∃ tail, cs = '"' :: '"' :: tail
    · obtain ⟨tail, rfl⟩ := hblock
      simp only [List.cons_append, List.length_cons] at h ⊢
      have hbody : (scanBlockString (tail ++ '#' :: x)).more ≤ tail.length := by omega
      rw [scanBlockString_congr y hbody]
    · have hshort (z tail : List Char) (he : cs ++ '#' :: z = '"' :: '"' :: tail) : False := by
        obtain ⟨tail, rfl⟩ := exists_eq_append_of_append_eq ['"', '"'] he (by decide)
        exact hblock ⟨tail, rfl⟩
      split at h
      next tail he => exact (hshort x tail he).elim
      split
      next tail he => exact (hshort y tail he).elim
      exact scanString_congr y h
  by_cases hnumber : c == '-' || c.isDigit
  · simp only [scan, hsep, hcomment, hquote, hnumber, Bool.false_eq_true, if_false, if_true,
      scanNumber_append _ endsWord_numberSign]
  by_cases hname : isNameStart c
  · simp only [scan, hsep, hcomment, hquote, hnumber, hname, Bool.false_eq_true, if_false,
      if_true, scanName_append _ endsWord_numberSign]
  simp only [scan, hsep, hcomment, hquote, hnumber, hname, Bool.false_eq_true, if_false]
  cases Punctuator.ofChar? c with
  | some p => rfl
  | none =>
    simp only
    by_cases hspread : ∃ tail, cs = '.' :: '.' :: tail
    · obtain ⟨tail, rfl⟩ := hspread
      split <;> simp_all
    · have hshort (z tail : List Char) (he : cs ++ '#' :: z = '.' :: '.' :: tail) : False := by
        obtain ⟨tail, rfl⟩ := exists_eq_append_of_append_eq ['.', '.'] he (by decide)
        exact hspread ⟨tail, rfl⟩
      split
      next tail he => exact (hshort y tail he).elim
      split
      next he _ => exact (hshort x _ he).elim
      rfl

theorem exists_tokensFrom_eq {skip : Nat} (offset : Nat) {pre : List Char}
    (h : overhang skip pre ('#' :: x) = 0) : ∃ before, ∀ y,
      tokensFrom skip offset (pre ++ '#' :: y) =
        before ++ tokensFrom 0 (offset + byteLength pre) ('#' :: y) := by
  -- By induction on the front; `skip` characters of it belong to a token that is taken already.
  induction pre generalizing skip offset with
  | nil =>
    rw [overhang_nil] at h
    exact ⟨[], fun y ↦ by rw [h]; rfl⟩
  | cons c pre ih =>
    have hoffset : offset + c.utf8Size + byteLength pre = offset + byteLength (c :: pre) := by
      rw [byteLength_cons, Nat.add_assoc]
    cases skip with
    | succ skip =>
      obtain ⟨before, hbefore⟩ := ih (offset + c.utf8Size) h
      rw [hoffset] at hbefore
      exact ⟨before, hbefore⟩
    | zero =>
      rw [overhang] at h
      obtain ⟨before, hbefore⟩ := ih (offset + c.utf8Size) h
      rw [hoffset] at hbefore
      have hmore : (scan c (pre ++ '#' :: x)).more ≤ pre.length := by
        by_contra hlt
        rw [overhang_of_le (by omega)] at h
        omega
      cases hk : (scan c (pre ++ '#' :: x)).kind with
      | none =>
        refine ⟨before, fun y ↦ ?_⟩
        rw [List.cons_append, tokensFrom, scan_congr y hmore, hk]
        exact hbefore y
      | some kind =>
        refine ⟨.of kind offset (c :: pre.take (scan c (pre ++ '#' :: x)).more) :: before,
          fun y ↦ ?_⟩
        rw [List.cons_append, tokensFrom, scan_congr y hmore, hk, List.cons_append, ← hbefore,
          List.take_append_of_le_length hmore]

end NumberSign

theorem tokensFrom_length (offset : Nat) (cs rest : List Char) :
    tokensFrom cs.length offset (cs ++ rest) = tokensFrom 0 (offset + byteLength cs) rest := by
  induction cs generalizing offset with
  | nil => rfl
  | cons c cs ih =>
    rw [List.length_cons, List.cons_append, tokensFrom, ih, byteLength_cons, Nat.add_assoc]

theorem tokensFrom_comment (offset : Nat) {body rest : List Char}
    (hbody : ∀ c ∈ body, isLineEnd c = false) (hrest : ∀ c ∈ rest.head?, isLineEnd c) :
    tokensFrom 0 offset ('#' :: (body ++ rest)) =
      tokensFrom 0 (offset + byteLength ('#' :: body)) rest := by
  rw [tokensFrom, scan_comment hbody hrest, byteLength_cons, ← Nat.add_assoc]
  exact tokensFrom_length _ body rest

theorem tokens_eq_of_comment {pre body body' rest : List Char}
    (h : overhang 0 pre ('#' :: (body ++ rest)) = 0)
    (hbody : ∀ c ∈ body, isLineEnd c = false) (hbody' : ∀ c ∈ body', isLineEnd c = false)
    (hrest : ∀ c ∈ rest.head?, isLineEnd c) (hlength : byteLength body' = byteLength body) :
    tokens (pre ++ '#' :: (body' ++ rest)) = tokens (pre ++ '#' :: (body ++ rest)) := by
  obtain ⟨before, hbefore⟩ := exists_tokensFrom_eq 0 h
  rw [tokens, tokens, hbefore, hbefore, tokensFrom_comment _ hbody hrest,
    tokensFrom_comment _ hbody' hrest, byteLength_cons, byteLength_cons, hlength]

end SchemaBindings.Sdl
