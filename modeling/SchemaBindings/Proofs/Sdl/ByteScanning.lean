import SchemaBindings.Proofs.Sdl.ByteLexer

namespace SchemaBindings.Sdl

open Text

namespace ByteLexer

/-- A token on some characters as one on their bytes. -/
def seen (kind : TokenKind) (text : List Char) : Lexeme :=
  match kind with
  | .cutEscape => ⟨.invalid, byteLength text + 1⟩
  | kind => ⟨kind, byteLength text⟩

theorem seen_of_ne {kind : TokenKind} (h : kind ≠ .cutEscape) (text : List Char) :
    seen kind text = ⟨kind, byteLength text⟩ := by
  unfold seen
  split
  · exact absurd rfl h
  · rfl

@[simp] theorem after_after (m n : Nat) (x : Lexeme) :
    (x.after m).after n = x.after (n + m) := by
  rw [Lexeme.after, Lexeme.after, Lexeme.after, Nat.add_assoc]

theorem seen_append (kind : TokenKind) (a b : List Char) :
    seen kind (a ++ b) = (seen kind b).after (byteLength a) := by
  unfold seen
  split <;> simp [Lexeme.after, Nat.add_assoc]

theorem seen_cons (kind : TokenKind) (c : Char) (text : List Char) :
    seen kind (c :: text) = (seen kind text).after c.utf8Size := by
  rw [← List.singleton_append, seen_append]
  rfl

variable {c : Char} {cs : List Char} {p : Char → Bool}

theorem peek_bytes (hp : IsAscii p) (cs : List Char) : peek p (bytes cs) = cs.head?.any p := by
  cases cs with
  | nil => rfl
  | cons c cs =>
    obtain ⟨lead, bs, hc⟩ := exists_encodes c
    rw [peek, bytes_cons, hc.eq, List.cons_append, List.head?_cons, List.head?_cons,
      Option.any_some, Option.any_some, hp.apply_ofUInt8 (hc.eq ▸ List.mem_cons_self)]

theorem span_bytes (hp : ∀ c, ∀ b ∈ String.utf8EncodeChar c, p (.ofUInt8 b) = p c)
    (cs : List Char) : span p (bytes cs) = byteLength (cs.takeWhile p) := by
  rw [span, takeWhile_bytes hp, length_bytes]

theorem opens_bytes (text cs : List Char) : opens text (bytes cs) = text.isPrefixOf cs := by
  rw [opens, Bool.eq_iff_iff, List.isPrefixOf_iff_prefix, List.isPrefixOf_iff_prefix,
    bytes_prefix_iff]

theorem string_append {bs : List UInt8}
    (h : ∀ b ∈ bs, isLineEnd (.ofUInt8 b) = false ∧ (Char.ofUInt8 b == '"') = false ∧
      (Char.ofUInt8 b == '\\') = false) (rest : List UInt8) :
    string (bs ++ rest) = (string rest).after bs.length := by
  induction bs with
  | nil => simp [Lexeme.after]
  | cons b bs ih =>
    obtain ⟨⟨hline, hquote, hback⟩, hbs⟩ := List.forall_mem_cons.mp h
    rw [List.cons_append, string, hline, hquote, hback, ih hbs]
    simp [Nat.add_comm]

theorem isAscii_isLineEnd : IsAscii isLineEnd :=
  (isAscii_beq (by decide)).or (isAscii_beq (by decide))

theorem string_append_of_le {bs : List UInt8} (h : ∀ b ∈ bs, 0x80 ≤ b.toNat) (rest : List UInt8) :
    string (bs ++ rest) = (string rest).after bs.length :=
  string_append (fun b hb ↦ ⟨isAscii_isLineEnd.ofUInt8_eq_false (h b hb),
    (isAscii_beq (by decide)).ofUInt8_eq_false (h b hb),
    (isAscii_beq (by decide)).ofUInt8_eq_false (h b hb)⟩) rest

theorem string_backslash (rest : List UInt8) :
    string (0x5C :: rest) = (string (rest.drop 1)).after 2 := by
  rw [string]
  rfl

theorem string_bytes (cs : List Char) : ∃ kind, (scanString cs).kind = some kind ∧
    string (bytes cs) = seen kind (cs.take (scanString cs).more) := by
  fun_induction scanString cs with
  | case1 => exact ⟨_, rfl, by rw [bytes, List.flatMap_nil, string]; rfl⟩
  | case2 =>
    have hbytes : bytes ['\\'] = [0x5C] := by decide
    refine ⟨_, rfl, ?_⟩
    rw [hbytes, string_backslash, List.drop_nil, string]
    rfl
  | case3 d cs rest ih =>
    obtain ⟨kind, hk, hstring⟩ := ih
    obtain ⟨lead, bs, hd⟩ := exists_encodes d
    have hbytes : bytes ('\\' :: d :: cs) = 0x5C :: lead :: (bs ++ bytes cs) := by
      rw [bytes_cons, bytes_cons, hd.eq]
      rfl
    refine ⟨kind, hk, ?_⟩
    -- The first byte of `d` goes with the backslash, the others pass as plain ones.
    rw [hbytes, string_backslash, List.drop_succ_cons, List.drop_zero, string_append_of_le hd.le,
      hstring, List.take_succ_cons, List.take_succ_cons, seen_cons, seen_cons, after_after,
      after_after, ← hd.length_eq]
    congr 1
    rw [show '\\'.utf8Size = 1 from rfl]
    omega
  | case4 c cs _ _ hquote =>
    obtain rfl := beq_iff_eq.mp hquote
    have hbytes : bytes ('"' :: cs) = 0x22 :: bytes cs := bytes_cons _ _
    refine ⟨_, rfl, ?_⟩
    rw [hbytes, string]
    rfl
  | case5 c cs _ _ _ hline =>
    obtain ⟨lead, bs, hc⟩ := exists_encodes c
    have hlead := isAscii_isLineEnd.apply_ofUInt8 (c := c) (hc.eq ▸ List.mem_cons_self)
    refine ⟨_, rfl, ?_⟩
    rw [bytes_cons, hc.eq, List.cons_append, string, if_pos (hlead.trans hline)]
    rfl
  | case6 c cs hend hescape hquote hline rest ih =>
    obtain ⟨kind, hk, hstring⟩ := ih
    have hback : (c == '\\') = false := by
      rw [beq_eq_false_iff_ne]
      intro hc
      cases cs with
      | nil => exact hend hc rfl
      | cons d cs => exact hescape d cs hc rfl
    refine ⟨kind, hk, ?_⟩
    rw [bytes_cons, string_append, String.length_utf8EncodeChar, hstring, List.take_succ_cons,
      seen_cons]
    intro b hb
    exact ⟨(isAscii_isLineEnd.apply_ofUInt8 hb).trans (Bool.eq_false_iff.mpr hline),
      ((isAscii_beq (by decide)).apply_ofUInt8 hb).trans (Bool.eq_false_iff.mpr hquote),
      ((isAscii_beq (by decide)).apply_ofUInt8 hb).trans hback⟩

theorem opens_of_le {d : Char} (hd : d.val.toNat < 0x80) {b : UInt8} (hb : 0x80 ≤ b.toNat)
    (text : List Char) (rest : List UInt8) : opens (d :: text) (b :: rest) = false := by
  rw [opens, Bool.eq_false_iff, ne_eq, List.isPrefixOf_iff_prefix, bytes_cons]
  obtain ⟨x, hcode, -, hx⟩ | ⟨hwide, -⟩ := ascii_or_isWide d
  · rw [hcode, List.cons_append, List.cons_prefix_cons]
    rintro ⟨rfl, -⟩
    omega
  · omega

theorem blockString_append_of_le {bs : List UInt8} (h : ∀ b ∈ bs, 0x80 ≤ b.toNat)
    (rest : List UInt8) : blockString (bs ++ rest) = (blockString rest).after bs.length := by
  induction bs with
  | nil => simp [Lexeme.after]
  | cons b bs ih =>
    obtain ⟨hb, hbs⟩ := List.forall_mem_cons.mp h
    rw [List.cons_append, blockString, opens_of_le (by decide) hb, opens_of_le (by decide) hb,
      ih hbs]
    simp [Nat.add_comm]

theorem blockString_bytes (cs : List Char) : ∃ kind, (scanBlockString cs).kind = some kind ∧
    blockString (bytes cs) = seen kind (cs.take (scanBlockString cs).more) := by
  fun_induction scanBlockString cs with
  | case1 => exact ⟨_, rfl, by rw [bytes, List.flatMap_nil, blockString]; rfl⟩
  | case2 cs =>
    have hbytes : bytes ('"' :: '"' :: '"' :: cs) = 0x22 :: 0x22 :: 0x22 :: bytes cs := by
      simp only [bytes_cons]
      rfl
    refine ⟨_, rfl, ?_⟩
    rw [hbytes, blockString, if_pos (by rw [← hbytes, opens_bytes]; rfl)]
    rfl
  | case3 cs rest ih =>
    obtain ⟨kind, hk, hblock⟩ := ih
    have hbytes : bytes ('\\' :: '"' :: '"' :: '"' :: cs) =
        0x5C :: 0x22 :: 0x22 :: 0x22 :: bytes cs := by
      simp only [bytes_cons]
      rfl
    refine ⟨kind, hk, ?_⟩
    rw [hbytes, blockString, if_neg (by rw [← hbytes, opens_bytes]; simp),
      if_pos (by rw [← hbytes, opens_bytes]; rfl)]
    simp only [List.drop_succ_cons, List.drop_zero, hblock, List.take_succ_cons, seen_cons,
      after_after]
    rfl
  | case4 c cs hclose hescape rest ih =>
    obtain ⟨kind, hk, hblock⟩ := ih
    obtain ⟨lead, bs, hc⟩ := exists_encodes c
    have hbytes : bytes (c :: cs) = lead :: (bs ++ bytes cs) := by
      rw [bytes_cons, hc.eq, List.cons_append]
    have hnot : ¬ opens ['"', '"', '"'] (lead :: (bs ++ bytes cs)) := by
      rw [← hbytes, opens_bytes, List.isPrefixOf_iff_prefix]
      rintro ⟨after, h⟩
      obtain ⟨rfl, rfl⟩ := List.cons.inj h
      exact hclose after rfl rfl
    have hnot' : ¬ opens ['\\', '"', '"', '"'] (lead :: (bs ++ bytes cs)) := by
      rw [← hbytes, opens_bytes, List.isPrefixOf_iff_prefix]
      rintro ⟨after, h⟩
      obtain ⟨rfl, rfl⟩ := List.cons.inj h
      exact hescape after rfl rfl
    refine ⟨kind, hk, ?_⟩
    rw [hbytes, blockString, if_neg hnot, if_neg hnot', blockString_append_of_le hc.le, hblock,
      List.take_succ_cons, seen_cons, after_after, ← hc.length_eq, Nat.add_comm]

theorem quoted_bytes (cs : List Char) : ∃ kind, (scan '"' cs).kind = some kind ∧
    quoted (bytes cs) = seen kind (cs.take (scan '"' cs).more) := by
  by_cases h : ['"', '"'] <+: cs
  · obtain ⟨rest, rfl⟩ := h
    obtain ⟨kind, hk, hblock⟩ := blockString_bytes rest
    have hbytes : bytes (['"', '"'] ++ rest) = 0x22 :: 0x22 :: bytes rest := bytes_append _ _
    refine ⟨kind, hk, ?_⟩
    rw [quoted, if_pos (by rw [opens_bytes]; rfl), hbytes, List.drop_succ_cons,
      List.drop_succ_cons, List.drop_zero, hblock]
    rw [show (scan '"' (['"', '"'] ++ rest)).more = (scanBlockString rest).more + 2 from rfl,
      List.cons_append, List.cons_append, List.take_succ_cons, List.take_succ_cons, seen_cons,
      seen_cons, after_after]
    rfl
  · rw [scan_eq_scanString_of_not_opens h, quoted, opens_bytes,
      if_neg (by rwa [List.isPrefixOf_iff_prefix])]
    exact string_bytes cs

def Narrow (n : Nat) (cs : List Char) : Prop :=
  byteLength (cs.take n) = n

theorem Narrow.add {m n : Nat} (hm : Narrow m cs) (hn : Narrow n (cs.drop m)) :
    Narrow (m + n) cs := by
  rw [Narrow, List.take_add, byteLength_append, hm, hn]

theorem Narrow.cons {n : Nat} (h : Narrow n cs) (hc : c.utf8Size = 1) :
    Narrow (1 + n) (c :: cs) := by
  rw [Narrow, Nat.add_comm, List.take_succ_cons, byteLength_cons, hc, h, Nat.add_comm]

theorem Narrow.drop_bytes {n : Nat} (h : Narrow n cs) : (bytes cs).drop n = bytes (cs.drop n) := by
  rw [← Text.drop_bytes, h]

theorem utf8Size_of_isAscii (hp : IsAscii p) (hc : p c) : c.utf8Size = 1 :=
  Char.utf8Size_eq_one_iff.mpr
    (UInt32.le_iff_toNat_le.mpr (Nat.le_of_lt_succ (hp c hc)))

theorem narrow_countWhile (hp : IsAscii p) (cs : List Char) : Narrow (countWhile p cs) cs := by
  rw [Narrow, take_countWhile, countWhile]
  induction cs with
  | nil => rfl
  | cons c cs ih =>
    cases hc : p c with
    | true =>
      rw [List.takeWhile_cons_of_pos hc, byteLength_cons, ih, utf8Size_of_isAscii hp hc,
        List.length_cons, Nat.add_comm]
    | false =>
      rw [List.takeWhile_cons_of_neg (by simp [hc])]
      rfl

theorem span_bytes_of_isAscii (hp : IsAscii p) (cs : List Char) :
    span p (bytes cs) = countWhile p cs := by
  rw [span_bytes (fun _ _ ↦ hp.apply_ofUInt8), ← take_countWhile]
  exact narrow_countWhile hp cs

theorem isAscii_isDigit : IsAscii Char.isDigit := by
  intro c h
  simp only [Char.isDigit, Bool.and_eq_true, decide_eq_true_eq, UInt32.le_iff_toNat_le, ge_iff_le,
    Char.reduceVal, UInt32.reduceToNat] at h
  exact Nat.lt_of_le_of_lt h.2 (by decide)

theorem isAscii_isAlpha : IsAscii Char.isAlpha := by
  intro c h
  have hchar : c.isAlpha = (decide ('A'.val ≤ c.val ∧ c.val ≤ 'Z'.val) ||
      (decide ('a'.val ≤ c.val) && decide (c.val ≤ 'z'.val))) := rfl
  simp only [hchar, Bool.or_eq_true, Bool.and_eq_true, decide_eq_true_eq, UInt32.le_iff_toNat_le,
    Char.reduceVal, UInt32.reduceToNat] at h
  omega

theorem narrow_one (hp : IsAscii p) (h : cs.head?.any p) : Narrow 1 cs := by
  cases cs with
  | nil => cases h
  | cons c cs =>
    rw [Narrow, List.take_succ_cons, List.take_zero, byteLength_cons, utf8Size_of_isAscii hp h]
    rfl

theorem fractionLength_eq (cs : List Char) : fractionLength cs =
    if cs.head?.any (· == '.') && cs.tail.head?.any Char.isDigit then
      1 + countWhile Char.isDigit cs.tail
    else 0 := by
  unfold fractionLength
  split
  next rest =>
    cases rest with
    | nil => rfl
    | cons d rest => by_cases hd : d.isDigit <;> simp [countWhile, hd]
  next hdot =>
    cases cs with
    | nil => rfl
    | cons c cs =>
      have hc : c ≠ '.' := fun h ↦ hdot cs (by rw [h])
      simp [hc]

theorem fraction_bytes (cs : List Char) :
    fraction (bytes cs) = fractionLength cs ∧ Narrow (fractionLength cs) cs := by
  have hdot : IsAscii (· == '.') := isAscii_beq (by decide)
  rw [fraction, fractionLength_eq, peek_bytes hdot]
  by_cases hfirst : cs.head?.any (· == '.')
  · have hone := narrow_one hdot hfirst
    rw [hone.drop_bytes, List.drop_one, peek_bytes isAscii_isDigit,
      span_bytes_of_isAscii isAscii_isDigit]
    split
    · exact ⟨rfl, hone.add (by simpa using narrow_countWhile isAscii_isDigit cs.tail)⟩
    · exact ⟨rfl, rfl⟩
  · rw [Bool.eq_false_iff.mpr hfirst, Bool.false_and, Bool.false_and]
    exact ⟨rfl, rfl⟩

theorem exponentMarkLength_eq (cs : List Char) : exponentMarkLength cs =
    if cs.head?.any fun c ↦ c == 'e' || c == 'E' then
      if cs.tail.head?.any fun c ↦ c == '+' || c == '-' then 2 else 1
    else 0 := by
  cases cs with
  | nil => rfl
  | cons c cs =>
    unfold exponentMarkLength
    rw [List.head?_cons, Option.any_some, List.tail_cons]
    refine if_congr Iff.rfl ?_ rfl
    cases cs with
    | nil => rfl
    | cons d cs => grind

theorem exponentMark_bytes (cs : List Char) :
    exponentMark (bytes cs) = exponentMarkLength cs ∧ Narrow (exponentMarkLength cs) cs := by
  have hmark : IsAscii fun c ↦ c == 'e' || c == 'E' :=
    (isAscii_beq (by decide)).or (isAscii_beq (by decide))
  have hsign : IsAscii fun c ↦ c == '+' || c == '-' :=
    (isAscii_beq (by decide)).or (isAscii_beq (by decide))
  rw [exponentMark, exponentMarkLength_eq, peek_bytes hmark]
  split
  next hfirst =>
    have hone := narrow_one hmark hfirst
    rw [hone.drop_bytes, List.drop_one, peek_bytes hsign]
    split
    next hsecond => exact ⟨rfl, hone.add (by simpa using narrow_one hsign hsecond)⟩
    next => exact ⟨rfl, hone⟩
  next => exact ⟨rfl, rfl⟩

theorem sign_bytes (hc : c == '-' || c.isDigit) (cs : List Char) : ∃ sign first,
    sign + first = 1 ∧ (if peek (· == '-') (bytes (c :: cs)) then 1 else 0) = sign ∧
      (first = 0 ↔ c == '-') ∧
      span Char.isDigit ((bytes (c :: cs)).drop sign) = first + countWhile Char.isDigit cs := by
  have hminus : IsAscii (· == '-') := isAscii_beq (by decide)
  rw [peek_bytes hminus, List.head?_cons, Option.any_some]
  by_cases hsign : c == '-'
  · have hfirst : Narrow 1 (c :: cs) := by
      rw [beq_iff_eq.mp hsign]
      rfl
    refine ⟨1, 0, rfl, if_pos hsign, by simp [hsign], ?_⟩
    rw [hfirst.drop_bytes, List.drop_one, List.tail_cons, span_bytes_of_isAscii isAscii_isDigit,
      Nat.zero_add]
  · have hdigit : c.isDigit := by simpa [hsign] using hc
    refine ⟨0, 1, rfl, if_neg hsign, by simp [hsign], ?_⟩
    rw [List.drop_zero, span_bytes_of_isAscii isAscii_isDigit, countWhile,
      List.takeWhile_cons_of_pos hdigit, List.length_cons, Nat.add_comm]
    rfl

theorem seen_of_narrow {kind : TokenKind} {n : Nat} (hkind : kind ≠ .cutEscape) (h : Narrow n cs) :
    seen kind (cs.take n) = ⟨kind, n⟩ := by
  rw [seen_of_ne hkind, h]

theorem isAscii_endsNumber : IsAscii fun c ↦ c.isAlpha || c == '_' || c == '.' :=
  (isAscii_isAlpha.or (isAscii_beq (by decide))).or (isAscii_beq (by decide))

theorem number_bytes (hc : c == '-' || c.isDigit) (cs : List Char) :
    ∃ kind, (scanNumber c cs).kind = some kind ∧
      number (bytes (c :: cs)) = seen kind (c :: cs.take (scanNumber c cs).more) := by
  have hminus : IsAscii (· == '-') := isAscii_beq (by decide)
  have hsize : c.utf8Size = 1 := utf8Size_of_isAscii (hminus.or isAscii_isDigit) hc
  have hdrop {n : Nat} (h : Narrow n cs) : (bytes (c :: cs)).drop (1 + n) = bytes (cs.drop n) := by
    rw [(h.cons hsize).drop_bytes, Nat.add_comm, List.drop_succ_cons]
  have hseen {kind : TokenKind} {n : Nat} (hkind : kind ≠ .cutEscape) (h : Narrow n cs) :
      (⟨kind, 1 + n⟩ : Lexeme) = seen kind (c :: cs.take n) := by
    rw [← seen_of_narrow hkind (h.cons hsize), Nat.add_comm, List.take_succ_cons]
  obtain ⟨sign, first, hone, hsign, hfirst, hspan⟩ := sign_bytes hc cs
  have hwhole : Narrow (countWhile Char.isDigit cs) cs := narrow_countWhile isAscii_isDigit cs
  unfold number scanNumber
  simp only [hsign, hspan]
  generalize countWhile Char.isDigit cs = whole at hwhole ⊢
  by_cases hnone : c == '-' && whole == 0
  · have hzero : first = 0 ∧ whole = 0 := by simpa [hfirst] using hnone
    rw [if_pos hnone, if_pos (by omega)]
    exact ⟨_, rfl, by rw [← hseen (by simp) (n := 0) rfl, ← hone, hzero.1]; rfl⟩
  have hsome : ¬ first + whole = 0 := by
    rintro h
    obtain ⟨hzero, rfl⟩ := Nat.add_eq_zero_iff.mp h
    exact hnone (by simp [hfirst.mp hzero])
  have hlength : sign + (first + whole) = 1 + whole := by omega
  rw [if_neg hnone, if_neg hsome, hlength, hdrop hwhole, (fraction_bytes _).1]
  have hfraction := hwhole.add (fraction_bytes (cs.drop whole)).2
  generalize fractionLength (cs.drop whole) = fraction at hfraction ⊢
  rw [Nat.add_assoc 1, hdrop hfraction, (exponentMark_bytes _).1]
  have hmark := hfraction.add (exponentMark_bytes (cs.drop (whole + fraction))).2
  generalize exponentMarkLength (cs.drop (whole + fraction)) = mark at hmark ⊢
  rw [Nat.add_assoc 1, hdrop hmark, span_bytes_of_isAscii isAscii_isDigit]
  have hexponent : Narrow (if mark = 0 then 0 else
      countWhile Char.isDigit (cs.drop (whole + fraction + mark)))
      (cs.drop (whole + fraction + mark)) := by
    split
    · rfl
    · exact narrow_countWhile isAscii_isDigit _
  have hall := hmark.add hexponent
  generalize (if mark = 0 then 0 else countWhile Char.isDigit (cs.drop (whole + fraction + mark))) =
    exponent at hall ⊢
  have hkind : (if fraction + mark = 0 then TokenKind.int else .float) ≠ .cutEscape := by
    split <;> simp
  rw [Nat.add_assoc 1, hdrop hall, peek_bytes isAscii_endsNumber]
  by_cases hbare : mark ≠ 0 ∧ exponent = 0
  · rw [if_pos hbare, if_pos hbare]
    exact ⟨_, rfl, hseen (by simp) hall⟩
  rw [if_neg hbare, if_neg hbare]
  cases cs.drop (whole + fraction + mark + exponent) with
  | nil => exact ⟨_, rfl, hseen hkind hall⟩
  | cons d rest =>
    rw [List.head?_cons, Option.any_some]
    simp only
    split
    · exact ⟨_, rfl, hseen (by simp) hall⟩
    · exact ⟨_, rfl, hseen hkind hall⟩

theorem isAscii_isNameChar : IsAscii isNameChar :=
  (isAscii_isAlpha.or isAscii_isDigit).or (isAscii_beq (by decide))

theorem name?_bytes (hc : isNameStart c) (cs : List Char) :
    ∃ kind, (scanName c cs).kind = some kind ∧
      name? (bytes (c :: cs)) = some (seen kind (c :: cs.take (scanName c cs).more)) := by
  have hword : (c :: cs).takeWhile isNameChar = c :: cs.takeWhile isNameChar :=
    List.takeWhile_cons_of_pos (isNameChar_of_isNameStart hc)
  have hnarrow := narrow_countWhile isAscii_isNameChar (c :: cs)
  rw [Narrow, take_countWhile, hword] at hnarrow
  have hslice : sliceUtf8? 0 (countWhile isNameChar (c :: cs)) (bytes (c :: cs)) =
      some (bytes (c :: cs.takeWhile isNameChar)) := by
    have hfront := sliceBytes?_append [] (c :: cs.takeWhile isNameChar)
      ((c :: cs).dropWhile isNameChar)
    rw [byteLength_nil, Nat.zero_add, hnarrow, List.nil_append, ← hword,
      List.takeWhile_append_dropWhile, hword] at hfront
    rw [sliceUtf8?_bytes, hfront, Option.map_some]
  have hfind : (Keyword.all.find? fun k ↦
      bytes k.text.toList == bytes (c :: cs.takeWhile isNameChar)) =
        Keyword.ofText? (.ofList (c :: cs.takeWhile isNameChar)) := by
    rw [Keyword.ofText?]
    congr 1
    funext k
    rw [Bool.eq_iff_iff, beq_iff_eq, beq_iff_eq, bytes_injective.eq_iff, ← String.toList_inj,
      String.toList_ofList]
  rw [name?, span_bytes_of_isAscii isAscii_isNameChar]
  rw [hslice, Option.map_some, hfind, more_scanName, take_countWhile, scanName, ← hnarrow]
  cases Keyword.ofText? (.ofList (c :: cs.takeWhile isNameChar)) with
  | some k => exact ⟨.keyword k, rfl, rfl⟩
  | none => exact ⟨.name, rfl, rfl⟩

end ByteLexer

end SchemaBindings.Sdl
