import SchemaBindings.Proofs.Sdl.Scanning

namespace SchemaBindings.Sdl

open Text

variable {p : Char → Bool} {d : Char}

theorem countWhile_le (p : Char → Bool) (cs : List Char) : countWhile p cs ≤ cs.length :=
  (List.takeWhile_prefix p).length_le

theorem takeWhile_append_cons (hd : ¬ p d) (cs rest : List Char) :
    (cs ++ d :: rest).takeWhile p = cs.takeWhile p := by
  induction cs with
  | nil => simp [hd]
  | cons c cs ih => by_cases hc : p c <;> simp [hc, ih]

theorem countWhile_append_cons (hd : ¬ p d) (cs rest : List Char) :
    countWhile p (cs ++ d :: rest) = countWhile p cs := by
  rw [countWhile, takeWhile_append_cons hd, countWhile]

section Lengths

theorem more_scanString_le (cs : List Char) : (scanString cs).more ≤ cs.length := by
  fun_induction scanString cs with
  | case1 => simp
  | case2 => simp
  | case3 _ cs rest ih => simpa using ih
  | case4 => simp
  | case5 => simp
  | case6 c cs _ _ _ _ rest ih => simpa using ih

theorem more_scanBlockString_le (cs : List Char) : (scanBlockString cs).more ≤ cs.length := by
  fun_induction scanBlockString cs with
  | case1 => simp
  | case2 => simp
  | case3 cs rest ih => simpa using ih
  | case4 c cs _ _ rest ih => simpa using ih

theorem fractionLength_le (cs : List Char) : fractionLength cs ≤ cs.length := by
  unfold fractionLength
  split
  · next cs =>
    have := countWhile_le Char.isDigit cs
    split
    · omega
    · rw [List.length_cons]
      omega
  · omega

theorem exponentMarkLength_le (cs : List Char) : exponentMarkLength cs ≤ cs.length := by
  unfold exponentMarkLength
  repeat' split
  all_goals simp

theorem more_scanNumber_le (first : Char) (cs : List Char) :
    (scanNumber first cs).more ≤ cs.length := by
  unfold scanNumber
  simp only
  generalize hw : countWhile Char.isDigit cs = whole
  generalize hf : fractionLength (cs.drop whole) = fraction
  generalize hm : exponentMarkLength (cs.drop (whole + fraction)) = mark
  generalize hd : countWhile Char.isDigit (cs.drop (whole + fraction + mark)) = digits
  have hwhole := hw ▸ countWhile_le Char.isDigit cs
  have hfraction := hf ▸ fractionLength_le (cs.drop whole)
  have hmark := hm ▸ exponentMarkLength_le (cs.drop (whole + fraction))
  have hdigits := hd ▸ countWhile_le Char.isDigit (cs.drop (whole + fraction + mark))
  rw [List.length_drop] at hfraction hmark hdigits
  generalize ht : (if mark = 0 then 0 else digits) = tail
  have htail : tail ≤ digits := by
    rw [← ht]
    split <;> omega
  have hlength : whole + fraction + mark + tail ≤ cs.length := by omega
  repeat' split
  · exact Nat.zero_le _
  all_goals exact hlength

theorem more_scanName_le (first : Char) (cs : List Char) :
    (scanName first cs).more ≤ cs.length := by
  have hle := countWhile_le isNameChar cs
  unfold scanName
  simp only
  split <;> exact hle

theorem more_scan_le (c : Char) (cs : List Char) : (scan c cs).more ≤ cs.length := by
  by_cases hsep : isSeparator c
  · simp [scan, hsep]
  by_cases hcomment : c == '#'
  · simpa [scan, hsep, hcomment] using countWhile_le _ cs
  by_cases hquote : c == '"'
  · simp only [scan, hsep, hcomment, hquote, Bool.false_eq_true, if_false, if_true]
    split
    · simpa using more_scanBlockString_le _
    · exact more_scanString_le cs
  by_cases hnumber : c == '-' || c.isDigit
  · simpa only [scan, hsep, hcomment, hquote, hnumber, Bool.false_eq_true, if_false, if_true] using
      more_scanNumber_le c cs
  by_cases hname : isNameStart c
  · simpa only [scan, hsep, hcomment, hquote, hnumber, hname, Bool.false_eq_true, if_false,
      if_true] using more_scanName_le c cs
  simp only [scan, hsep, hcomment, hquote, hnumber, hname, Bool.false_eq_true, if_false]
  repeat' split
  all_goals simp

end Lengths

section LineEnd

variable (rest : List Char)

theorem exists_eq_append_of_append_eq {d : Char} {rest cs tail : List Char} (front : List Char)
    (h : cs ++ d :: rest = front ++ tail) (hfront : d ∉ front) :
    ∃ tail', cs = front ++ tail' := by
  rcases List.append_eq_append_iff.mp h with ⟨mid, hmid, htail⟩ | ⟨mid, rfl, -⟩
  · cases mid with
    | nil => exact ⟨[], by simpa using hmid.symm⟩
    | cons c mid =>
      obtain ⟨rfl, -⟩ := List.cons.inj htail
      exact absurd (by simp [hmid]) hfront
  · exact ⟨mid, rfl⟩

theorem scanString_append {cs : List Char} {k : TokenKind} (hk : (scanString cs).kind = some k)
    (hf : ¬ k.isFault) : scanString (cs ++ '\n' :: rest) = scanString cs := by
  fun_induction scanString cs with
  | case1 => cases hk; simp [TokenKind.isFault] at hf
  | case2 => cases hk; simp [TokenKind.isFault] at hf
  | case3 _ cs found ih => simp [scanString, found, ih hk]
  | case4 c cs hend hescape hc => simp_all [scanString]
  | case5 => cases hk; simp [TokenKind.isFault] at hf
  | case6 c cs hend hescape hquote hline found ih =>
    have hc : c ≠ '\\' := by
      intro he
      cases cs with
      | nil => exact hend he rfl
      | cons d cs => exact hescape d cs he rfl
    rw [List.cons_append, scanString, ih hk]
    · simp [hquote, hline, found]
    · exact fun he ↦ absurd he hc
    · exact fun _ _ he ↦ absurd he hc

theorem scanBlockString_append {cs : List Char} {k : TokenKind}
    (hk : (scanBlockString cs).kind = some k) (hf : ¬ k.isFault) :
    scanBlockString (cs ++ '\n' :: rest) = scanBlockString cs := by
  fun_induction scanBlockString cs with
  | case1 => cases hk; simp [TokenKind.isFault] at hf
  | case2 => simp [scanBlockString]
  | case3 cs found ih => simp [scanBlockString, found, ih hk]
  | case4 c cs hclose hescape found ih =>
    rw [List.cons_append, scanBlockString, ih hk]
    · intro tail hc h
      obtain ⟨tail, rfl⟩ := exists_eq_append_of_append_eq ['"', '"'] h (by decide)
      exact hclose tail hc rfl
    · intro tail hc h
      obtain ⟨tail, rfl⟩ := exists_eq_append_of_append_eq ['"', '"', '"'] h (by decide)
      exact hescape tail hc rfl

/-- A character that ends names and numbers and belongs to neither. -/
structure EndsWord (d : Char) : Prop where
  not_isNameChar : ¬ isNameChar d
  ne_mark : d ∉ ['.', '+', '-']

theorem endsWord_newline : EndsWord '\n' :=
  ⟨by decide, by decide⟩

section EndsWord

variable {d : Char} (hd : EndsWord d)

include hd

theorem EndsWord.not_isDigit : ¬ d.isDigit := by
  intro hdigit
  refine hd.not_isNameChar ?_
  simp [isNameChar, Char.isAlphanum, hdigit]

theorem EndsWord.ne {e : Char} (he : isNameChar e) : d ≠ e := by
  rintro rfl
  exact hd.not_isNameChar he

theorem fractionLength_append (cs : List Char) :
    fractionLength (cs ++ d :: rest) = fractionLength cs := by
  have hdot : d ≠ '.' := List.ne_of_not_mem_cons hd.ne_mark
  cases cs with
  | nil => simp [fractionLength, hdot]
  | cons c cs =>
    have hcount := countWhile_append_cons hd.not_isDigit cs rest
    by_cases hc : c = '.'
    · subst hc
      simp only [List.cons_append, fractionLength, hcount]
    · rw [List.cons_append, fractionLength, fractionLength]
      · simpa using hc
      · simpa using hc

theorem exponentMarkLength_append (cs : List Char) :
    exponentMarkLength (cs ++ d :: rest) = exponentMarkLength cs := by
  have hmark : d ≠ 'e' ∧ d ≠ 'E' := ⟨hd.ne (by decide), hd.ne (by decide)⟩
  have hsign : d ≠ '+' ∧ d ≠ '-' := by
    have hne := hd.ne_mark
    simp only [List.mem_cons, not_or] at hne
    exact ⟨hne.2.1, hne.2.2.1⟩
  rcases cs with _ | ⟨c, _ | ⟨e, cs⟩⟩
  · simp [exponentMarkLength, hmark]
  · simp [exponentMarkLength, hsign]
  · simp only [List.cons_append, exponentMarkLength]
    split
    · split <;> simp_all
    · rfl

theorem scanNumber_append (first : Char) (cs : List Char) :
    scanNumber first (cs ++ d :: rest) = scanNumber first cs := by
  have hcount (cs : List Char) :
      countWhile Char.isDigit (cs ++ d :: rest) = countWhile Char.isDigit cs :=
    countWhile_append_cons hd.not_isDigit cs rest
  have hdrop {n : Nat} (h : n ≤ cs.length) :
      (cs ++ d :: rest).drop n = cs.drop n ++ d :: rest :=
    List.drop_append_of_le_length h
  unfold scanNumber
  simp only [hcount]
  have hwhole := countWhile_le Char.isDigit cs
  rw [hdrop hwhole, fractionLength_append rest hd]
  have hfraction := fractionLength_le (cs.drop (countWhile Char.isDigit cs))
  generalize countWhile Char.isDigit cs = whole at *
  generalize fractionLength (cs.drop whole) = fraction at *
  rw [List.length_drop] at hfraction
  rw [hdrop (by omega), exponentMarkLength_append rest hd]
  have hmark := exponentMarkLength_le (cs.drop (whole + fraction))
  generalize exponentMarkLength (cs.drop (whole + fraction)) = mark at *
  rw [List.length_drop] at hmark
  rw [hdrop (by omega), hcount]
  have hdigits := countWhile_le Char.isDigit (cs.drop (whole + fraction + mark))
  generalize countWhile Char.isDigit (cs.drop (whole + fraction + mark)) = digits at *
  rw [List.length_drop] at hdigits
  generalize ht : (if mark = 0 then 0 else digits) = tail
  have htail : tail ≤ digits := by
    rw [← ht]
    split <;> omega
  rw [hdrop (by omega)]
  have hnext : (d.isAlpha || d == '_' || d == '.') = false := by
    have hname := hd.not_isNameChar
    simp only [isNameChar, Char.isAlphanum, Bool.or_eq_true, not_or, Bool.not_eq_true] at hname
    have hdot : (d == '.') = false :=
      beq_eq_false_iff_ne.mpr (List.ne_of_not_mem_cons hd.ne_mark)
    rw [hname.1.1, hname.2, hdot]
    rfl
  cases cs.drop (whole + fraction + mark + tail) with
  | nil => simp [hnext]
  | cons c cs => rfl

theorem scanName_append (first : Char) (cs : List Char) :
    scanName first (cs ++ d :: rest) = scanName first cs := by
  unfold scanName
  rw [takeWhile_append_cons hd.not_isNameChar]

end EndsWord

/-- A text begins with the same when a line end and more follow it. -/
theorem scan_append {c : Char} {cs : List Char}
    (hf : ∀ k, (scan c cs).kind = some k → ¬ k.isFault) :
    scan c (cs ++ '\n' :: rest) = scan c cs := by
  by_cases hsep : isSeparator c
  · simp [scan, hsep]
  by_cases hcomment : c == '#'
  · simp only [scan, hsep, hcomment, Bool.false_eq_true, if_false, if_true,
      countWhile_append_cons (p := fun d ↦ !isLineEnd d) (d := '\n') (by decide)]
  by_cases hquote : c == '"'
  · simp only [scan, hsep, hcomment, hquote, Bool.false_eq_true, if_false, if_true] at hf ⊢
    by_cases hblock : ∃ tail, cs = '"' :: '"' :: tail
    · obtain ⟨tail, rfl⟩ := hblock
      obtain ⟨k, hk⟩ := Option.ne_none_iff_exists'.mp (kind_scanBlockString_ne tail)
      simp only [List.cons_append, scanBlockString_append rest hk (hf k hk)]
    · have hshort (tail : List Char) (h : cs ++ '\n' :: rest = '"' :: '"' :: tail) : False := by
        obtain ⟨tail, rfl⟩ := exists_eq_append_of_append_eq ['"', '"'] h (by decide)
        exact hblock ⟨tail, rfl⟩
      split
      next tail h => exact (hshort tail h).elim
      split at hf
      next tail _ => exact absurd ⟨tail, rfl⟩ hblock
      obtain ⟨k, hk⟩ := Option.ne_none_iff_exists'.mp (kind_scanString_ne cs)
      exact scanString_append rest hk (hf k hk)
  by_cases hnumber : c == '-' || c.isDigit
  · simp only [scan, hsep, hcomment, hquote, hnumber, Bool.false_eq_true, if_false, if_true,
      scanNumber_append rest endsWord_newline]
  by_cases hname : isNameStart c
  · simp only [scan, hsep, hcomment, hquote, hnumber, hname, Bool.false_eq_true, if_false,
      if_true, scanName_append rest endsWord_newline]
  simp only [scan, hsep, hcomment, hquote, hnumber, hname, Bool.false_eq_true, if_false] at hf ⊢
  cases hp : Punctuator.ofChar? c with
  | some p => rfl
  | none =>
    simp only [hp] at hf ⊢
    split at hf
    · rfl
    · exact absurd rfl (hf .invalid rfl)

theorem tokensFrom_append_newline {skip offset : Nat} {cs : List Char} (hskip : skip ≤ cs.length)
    (hf : ∀ t ∈ tokensFrom skip offset cs, ¬ t.kind.isFault) :
    tokensFrom skip offset (cs ++ '\n' :: rest) =
      tokensFrom skip offset cs ++ tokensFrom 0 (offset + byteLength cs + 1) rest := by
  induction cs generalizing skip offset with
  | nil =>
    obtain rfl : skip = 0 := by simpa using hskip
    rfl
  | cons c cs ih =>
    -- The token that begins here, if any, ends within `cs`; so the rest goes on from the same skip.
    have hlater (skip : Nat) (hskip : skip ≤ cs.length)
        (hf : ∀ t ∈ tokensFrom skip (offset + c.utf8Size) cs, ¬ t.kind.isFault) :
        tokensFrom skip (offset + c.utf8Size) (cs ++ '\n' :: rest) =
          tokensFrom skip (offset + c.utf8Size) cs ++
            tokensFrom 0 (offset + byteLength (c :: cs) + 1) rest := by
      rw [ih hskip hf, byteLength_cons]
      congr 2
      omega
    cases skip with
    | succ skip => exact hlater skip (by simpa using hskip) hf
    | zero =>
      have hmore := more_scan_le c cs
      rw [tokensFrom] at hf
      cases hk : (scan c cs).kind with
      | none =>
        have hscan : scan c (cs ++ '\n' :: rest) = scan c cs := scan_append rest (by simp [hk])
        simp only [hk] at hf
        simp only [List.cons_append, tokensFrom, hscan, hk]
        exact hlater _ hmore hf
      | some kind =>
        simp only [hk] at hf
        have hkind : ¬ kind.isFault := by simpa only [kind_of] using hf _ List.mem_cons_self
        have hscan : scan c (cs ++ '\n' :: rest) = scan c cs :=
          scan_append rest (by simpa [hk] using hkind)
        simp only [List.cons_append, tokensFrom, hscan, hk,
          List.take_append_of_le_length hmore]
        rw [hlater _ hmore fun t ht ↦ hf t (List.mem_cons_of_mem _ ht)]

end LineEnd

/-- What a token says, wherever it stands. -/
def Token.sign (t : Token) : TokenKind × List Char :=
  (t.kind, t.text)

theorem sign_of (kind : TokenKind) (offset offset' : Nat) (text : List Char) :
    (Token.of kind offset text).sign = (Token.of kind offset' text).sign := by
  unfold Token.of
  split <;> rfl

theorem map_sign_tokensFrom (skip offset offset' : Nat) (cs : List Char) :
    (tokensFrom skip offset cs).map Token.sign = (tokensFrom skip offset' cs).map Token.sign := by
  induction cs generalizing skip offset offset' with
  | nil => cases skip <;> rfl
  | cons c cs ih =>
    cases skip with
    | succ skip => exact ih skip _ _
    | zero =>
      rw [tokensFrom, tokensFrom]
      split
      · exact ih _ _ _
      · rw [List.map_cons, List.map_cons, sign_of _ offset offset', ih]

theorem exists_tokens_append {cs : List Char} (rest : List Char)
    (hf : ∀ t ∈ tokens cs, ¬ t.kind.isFault) :
    ∃ us, tokens (cs ++ '\n' :: rest) = tokens cs ++ us ∧
      us.map Token.sign = (tokens rest).map Token.sign :=
  ⟨_, tokensFrom_append_newline rest (Nat.zero_le _) hf, map_sign_tokensFrom _ _ _ _⟩

end SchemaBindings.Sdl
