import SchemaBindings.Proofs.Sdl.ByteScanning

namespace SchemaBindings.Sdl

open Text

namespace ByteLexer

variable {c : Char} {cs : List Char}

theorem isSome_ofChar?_cases (h : (Punctuator.ofChar? c).isSome) :
    c.val.toNat < 0x80 ∧ c ≠ '.' ∧ (c == '"') = false ∧ (c == '-' || c.isDigit) = false ∧
      isNameStart c = false := by
  unfold Punctuator.ofChar? at h
  split at h
  all_goals first | decide | cases h

theorem ofChar?_eq_none (hc : c == '-' || c.isDigit || isNameStart c) :
    Punctuator.ofChar? c = none := by
  by_contra hp
  obtain ⟨-, -, -, hnumber, hname⟩ := isSome_ofChar?_cases (Option.isSome_iff_ne_none.mpr hp)
  rw [hnumber, hname] at hc
  cases hc

theorem ofChar?_ofUInt8 {b : UInt8} (hb : b ∈ String.utf8EncodeChar c) :
    Punctuator.ofChar? (.ofUInt8 b) = Punctuator.ofChar? c := by
  have hascii : IsAscii fun c ↦ (Punctuator.ofChar? c).isSome :=
    fun _ h ↦ (isSome_ofChar?_cases h).1
  obtain ⟨lead, hcode, rfl, -⟩ | ⟨hc, -⟩ := ascii_or_isWide c
  · rw [hcode] at hb
    rw [List.mem_singleton.mp hb]
  · have hnone := hascii.eq_false hc
    have hnone' := (hascii.apply_ofUInt8 hb).trans hnone
    rw [Option.isSome_eq_false_iff, Option.isNone_iff_eq_none] at hnone hnone'
    rw [hnone, hnone']

theorem isAscii_isNameStart : IsAscii isNameStart :=
  isAscii_isAlpha.or (isAscii_beq (by decide))

section Lead

variable {lead : UInt8} {bs : List UInt8}

theorem lexeme?_of_some {p : Punctuator} (h : Encodes lead bs c)
    (hp : Punctuator.ofChar? c = some p) :
    lexeme? lead (bs ++ bytes cs) = some ⟨.punctuator p, 1⟩ := by
  have hmem : lead ∈ String.utf8EncodeChar c := h.eq ▸ List.mem_cons_self
  rw [lexeme?, ofChar?_ofUInt8 hmem, hp]

theorem lexeme?_of_none (h : Encodes lead bs c) (hp : Punctuator.ofChar? c = none) :
    lexeme? lead (bs ++ bytes cs) =
      if ['.', '.', '.'].isPrefixOf (c :: cs) then some ⟨.punctuator .spread, 3⟩
      else if c == '"' then some ((quoted (bs ++ bytes cs)).after 1)
      else if c == '-' || c.isDigit then some (number (bytes (c :: cs)))
      else if isNameStart c then name? (bytes (c :: cs))
      else some ⟨.invalid, c.utf8Size⟩ := by
  have hmem : lead ∈ String.utf8EncodeChar c := h.eq ▸ List.mem_cons_self
  have hbytes : lead :: (bs ++ bytes cs) = bytes (c :: cs) := by
    rw [bytes_cons, h.eq, List.cons_append]
  have hboundary : isBoundary 0 (bytes (c :: cs)) :=
    isBoundary_bytes_iff.mpr ⟨[], c :: cs, rfl, rfl⟩
  have hquote : IsAscii (· == '"') := isAscii_beq (by decide)
  have hminus : IsAscii (· == '-') := isAscii_beq (by decide)
  rw [lexeme?, ofChar?_ofUInt8 hmem, hp]
  simp only
  rw [hbytes, opens_bytes, hquote.apply_ofUInt8 hmem, (hminus.or isAscii_isDigit).apply_ofUInt8
    hmem, isAscii_isNameStart.apply_ofUInt8 hmem, if_pos hboundary, h.width_eq]

theorem not_isPrefixOf_of_ne (hc : c ≠ '.') : ¬ ['.', '.', '.'].isPrefixOf (c :: cs) := by
  rw [List.isPrefixOf_iff_prefix, List.cons_prefix_cons]
  exact fun h ↦ hc h.1.symm

theorem lexeme?_quote (h : Encodes lead bs '"') {kind : TokenKind}
    (hk : (scan '"' cs).kind = some kind) : lexeme? lead (bs ++ bytes cs) =
      some (seen kind ('"' :: cs.take (scan '"' cs).more)) := by
  obtain ⟨kind', hk', hquoted⟩ := quoted_bytes cs
  obtain rfl := Option.some.inj (hk.symm.trans hk')
  obtain rfl : bs = [] := List.eq_nil_of_length_eq_zero (Nat.succ.inj h.length_eq)
  rw [lexeme?_of_none h (by decide), if_neg (not_isPrefixOf_of_ne (by decide)),
    if_pos (by decide), List.nil_append, hquoted, seen_cons]
  rfl

theorem lexeme?_number (h : Encodes lead bs c) (hc : c == '-' || c.isDigit) {kind : TokenKind}
    (hk : (scanNumber c cs).kind = some kind) : lexeme? lead (bs ++ bytes cs) =
      some (seen kind (c :: cs.take (scanNumber c cs).more)) := by
  have hnone : Punctuator.ofChar? c = none := ofChar?_eq_none (by rw [hc, Bool.true_or])
  have hdot : c ≠ '.' := fun he ↦ absurd (he ▸ hc) (by decide)
  have hquote : ¬ c == '"' := fun he ↦ absurd (beq_iff_eq.mp he ▸ hc) (by decide)
  obtain ⟨kind', hk', hbytes⟩ := number_bytes hc cs
  obtain rfl := Option.some.inj (hk.symm.trans hk')
  rw [lexeme?_of_none h hnone, if_neg (not_isPrefixOf_of_ne hdot), if_neg hquote, if_pos hc, hbytes]

theorem lexeme?_name (h : Encodes lead bs c) (hc : isNameStart c)
    (hnumber : ¬ (c == '-' || c.isDigit)) {kind : TokenKind}
    (hk : (scanName c cs).kind = some kind) : lexeme? lead (bs ++ bytes cs) =
      some (seen kind (c :: cs.take (scanName c cs).more)) := by
  have hnone : Punctuator.ofChar? c = none := ofChar?_eq_none (by rw [hc, Bool.or_true])
  have hdot : c ≠ '.' := fun he ↦ absurd (he ▸ hc) (by decide)
  have hquote : ¬ c == '"' := fun he ↦ absurd (beq_iff_eq.mp he ▸ hc) (by decide)
  obtain ⟨kind', hk', hbytes⟩ := name?_bytes hc cs
  obtain rfl := Option.some.inj (hk.symm.trans hk')
  rw [lexeme?_of_none h hnone, if_neg (not_isPrefixOf_of_ne hdot), if_neg hquote, if_neg hnumber,
    if_pos hc, hbytes]

end Lead

theorem lexeme?_bytes {kind : TokenKind} (hk : (scan c cs).kind = some kind) :
    ∃ lead rest, bytes (c :: cs) = lead :: rest ∧
      lexeme? lead rest = some (seen kind (c :: cs.take (scan c cs).more)) := by
  obtain ⟨lead, bs, h⟩ := exists_encodes c
  refine ⟨lead, bs ++ bytes cs, by rw [bytes_cons, h.eq, List.cons_append], ?_⟩
  by_cases hsep : isSeparator c
  · simp [scan, hsep] at hk
  by_cases hcomment : c == '#'
  · simp [scan, hsep, hcomment] at hk
  by_cases hquote : c == '"'
  · obtain rfl := beq_iff_eq.mp hquote
    exact lexeme?_quote h hk
  by_cases hnumber : c == '-' || c.isDigit
  · have hscan : scan c cs = scanNumber c cs := by simp [scan, hsep, hcomment, hquote, hnumber]
    rw [hscan] at hk ⊢
    exact lexeme?_number h hnumber hk
  by_cases hname : isNameStart c
  · have hscan : scan c cs = scanName c cs := by
      simp [scan, hsep, hcomment, hquote, hnumber, hname]
    rw [hscan] at hk ⊢
    exact lexeme?_name h hname hnumber hk
  cases hp : Punctuator.ofChar? c with
  | some p =>
    have hscan : scan c cs = ⟨some (.punctuator p), 0⟩ := by
      simp [scan, hsep, hcomment, hquote, hnumber, hname, hp]
    have hc := (isSome_ofChar?_cases (Option.isSome_of_eq_some hp)).1
    have hsize : c.utf8Size = 1 :=
      Char.utf8Size_eq_one_iff.mpr (UInt32.le_iff_toNat_le.mpr (Nat.le_of_lt_succ hc))
    rw [hscan] at hk ⊢
    cases hk
    rw [lexeme?_of_some h hp, List.take_zero, seen_cons, hsize]
    rfl
  | none =>
    rw [lexeme?_of_none h hp, if_neg hquote, if_neg hnumber, if_neg hname]
    by_cases hdots : ['.', '.', '.'] <+: c :: cs
    · obtain ⟨rest, hrest⟩ := hdots
      obtain ⟨rfl, rfl⟩ := List.cons.inj hrest
      cases hk
      rfl
    · have hscan : scan c cs = ⟨some .invalid, 0⟩ := by
        simp only [scan, hsep, hcomment, hquote, hnumber, hname, hp, Bool.false_eq_true, if_false]
        split
        next rest => exact absurd ⟨rest, rfl⟩ hdots
        next => rfl
      rw [hscan] at hk ⊢
      cases hk
      rw [if_neg (by rwa [List.isPrefixOf_iff_prefix]), List.take_zero, seen_cons]
      rfl

theorem isAscii_isGap : IsAscii isGap :=
  (((isAscii_beq (by decide)).or (isAscii_beq (by decide))).or isAscii_isLineEnd).or
    (isAscii_beq (by decide))

theorem ignored_cons (c : Char) (cs : List Char) : ignored (bytes (c :: cs)) =
    if isGap c then 1 + ignored (bytes cs)
    else if c == '#' then
      1 + byteLength (cs.takeWhile fun d ↦ !isLineEnd d) +
        ignored (bytes (cs.drop (countWhile (fun d ↦ !isLineEnd d) cs)))
    else if c == '\ufeff' then 3 + ignored (bytes cs)
    else 0 := by
  obtain ⟨lead, bs, h⟩ := exists_encodes c
  have hmem : lead ∈ String.utf8EncodeChar c := h.eq ▸ List.mem_cons_self
  have hhash : IsAscii (· == '#') := isAscii_beq (by decide)
  have hbytes : bytes (c :: cs) = lead :: (bs ++ bytes cs) := by
    rw [bytes_cons, h.eq, List.cons_append]
  have hnil {p : Char → Bool} (hp : IsAscii p) (hc : p c) : bs = [] := by
    have hlength := h.length_eq
    rw [utf8Size_of_isAscii hp hc] at hlength
    exact List.eq_nil_of_length_eq_zero (Nat.succ.inj hlength)
  rw [hbytes, ignored, isAscii_isGap.apply_ofUInt8 hmem, hhash.apply_ofUInt8 hmem, ← hbytes,
    opens_bytes]
  by_cases hgap : isGap c
  · rw [if_pos hgap, if_pos hgap, hnil isAscii_isGap hgap, List.nil_append]
  rw [if_neg hgap, if_neg hgap]
  by_cases hcomment : c == '#'
  · have hspan : span (fun d ↦ !isLineEnd d) (bytes cs) =
        byteLength (cs.takeWhile fun d ↦ !isLineEnd d) :=
      span_bytes (fun _ _ hb ↦ congrArg (!·) (isAscii_isLineEnd.apply_ofUInt8 hb)) cs
    rw [if_pos hcomment, if_pos hcomment, hnil hhash hcomment, List.nil_append]
    simp only
    rw [hspan, ← take_countWhile, Text.drop_bytes]
  rw [if_neg hcomment, if_neg hcomment]
  have hopens : ['\ufeff'].isPrefixOf (c :: cs) = (c == '\ufeff') := by
    rw [List.isPrefixOf_cons_cons, List.isPrefixOf_nil_left, Bool.and_true, BEq.comm]
  rw [hopens]
  by_cases hmark : c == '\ufeff'
  · obtain rfl := beq_iff_eq.mp hmark
    have hlength : bs.length = 2 := Nat.succ.inj h.length_eq
    rw [if_pos hmark, if_pos hmark, ← hlength, List.drop_left]
  · rw [if_neg hmark, if_neg hmark]

theorem ignored_bytes_of_some {kind : TokenKind} (hk : (scan c cs).kind = some kind) :
    ignored (bytes (c :: cs)) = 0 := by
  by_cases hsep : isSeparator c
  · simp [scan, hsep] at hk
  by_cases hcomment : c == '#'
  · simp [scan, hsep, hcomment] at hk
  have hnot : isGap c = false ∧ (c == '\ufeff') = false :=
    Bool.or_eq_false_iff.mp (Bool.eq_false_iff.mpr hsep)
  rw [ignored_cons, hnot.1, hnot.2, if_neg hcomment]
  rfl

theorem ignored_bytes_of_none (hk : (scan c cs).kind = none) :
    ignored (bytes (c :: cs)) = byteLength (c :: cs.take (scan c cs).more) +
      ignored (bytes (cs.drop (scan c cs).more)) := by
  rw [ignored_cons, byteLength_cons]
  obtain ⟨hsep, hmore⟩ | ⟨rfl, hmore⟩ := scan_kind_none hk
  · rw [hmore, List.take_zero, List.drop_zero, byteLength_nil, Nat.add_zero]
    rcases Bool.or_eq_true _ _ ▸ (show (isGap c || c == '\ufeff') from hsep) with hgap | hmark
    · rw [if_pos hgap, utf8Size_of_isAscii isAscii_isGap hgap]
    · obtain rfl := beq_iff_eq.mp hmark
      rfl
  · rw [hmore, take_countWhile]
    rfl

def lexed (t : Token) : TokenKind × Span :=
  ((seen t.kind t.text).kind, t.span)

theorem lexed_of (kind : TokenKind) (offset : Nat) (text : List Char) :
    lexed (.of kind offset text) =
      ((seen kind text).kind, ⟨offset, offset + (seen kind text).length⟩) := by
  by_cases hcut : kind = .cutEscape
  · subst hcut
    rfl
  · rw [lexed, kind_of, span_of hcut, seen_of_ne hcut, seen_of_ne hcut]

theorem more_of_cutEscape (hk : (scan c cs).kind = some .cutEscape) :
    (scan c cs).more = cs.length := by
  obtain ⟨-, hscan⟩ := scan_eq_scanString hk (.inr rfl)
  rw [hscan] at hk ⊢
  exact (exists_body_of_scanString_cut hk).1

theorem bytes_eq_append (c : Char) (cs : List Char) (n : Nat) :
    bytes (c :: cs) = bytes (c :: cs.take n) ++ bytes (cs.drop n) := by
  rw [← bytes_append, List.cons_append, List.take_append_drop]

theorem lex_of_none (hk : (scan c cs).kind = none) (offset : Nat) :
    lex offset (bytes (c :: cs)) = lex (offset + byteLength (c :: cs.take (scan c cs).more))
      (bytes (cs.drop (scan c cs).more)) := by
  rw [bytes_eq_append c cs (scan c cs).more, lex_of_ignored, length_bytes]
  rw [← bytes_eq_append, ignored_bytes_of_none hk, length_bytes]

theorem drop_seen {kind : TokenKind} (hk : (scan c cs).kind = some kind) :
    (bytes (c :: cs)).drop (seen kind (c :: cs.take (scan c cs).more)).length =
      bytes (cs.drop (scan c cs).more) := by
  by_cases hcut : kind = .cutEscape
  · subst hcut
    rw [more_of_cutEscape hk, List.take_length, List.drop_length]
    exact List.drop_eq_nil_of_le (by rw [length_bytes]; exact Nat.le_succ _)
  · rw [seen_of_ne hcut, bytes_eq_append c cs (scan c cs).more, ← length_bytes]
    exact List.drop_left

theorem lex_of_some {kind : TokenKind} (hk : (scan c cs).kind = some kind) (offset : Nat) :
    lex offset (bytes (c :: cs)) =
      (lex (offset + (seen kind (c :: cs.take (scan c cs).more)).length)
        (bytes (cs.drop (scan c cs).more))).map
        (lexed (.of kind offset (c :: cs.take (scan c cs).more)) :: ·) := by
  obtain ⟨lead, rest, hlead, hx⟩ := lexeme?_bytes hk
  rw [lex_eq, ignored_bytes_of_some hk, List.drop_zero, hlead]
  simp only
  rw [hx, Option.bind_some, ← hlead, drop_seen hk, Nat.add_zero, lexed_of]

theorem lex_bytes (offset : Nat) (cs : List Char) : lex offset (bytes cs) =
    some ((tokensFrom 0 offset cs).map lexed ++
      [(.endOfInput, .empty (offset + byteLength cs +
        if (tokensFrom 0 offset cs).any (·.kind == .cutEscape) then 1 else 0))]) := by
  induction hn : cs.length using Nat.strong_induction_on generalizing offset cs with
  | _ n ih =>
    cases cs with
    | nil => exact lex_nil offset
    | cons c cs =>
      have hrest (offset : Nat) := ih _ (by rw [← hn, List.length_drop, List.length_cons]; omega)
        offset (cs.drop (scan c cs).more) rfl
      have hsplit : byteLength (c :: cs) = byteLength (c :: cs.take (scan c cs).more) +
          byteLength (cs.drop (scan c cs).more) := by
        rw [← byteLength_append, List.cons_append, List.take_append_drop]
      rw [tokensFrom, tokensFrom_take (more_scan_le c cs), Nat.add_assoc offset c.utf8Size,
        ← byteLength_cons, hsplit, ← Nat.add_assoc offset]
      cases hk : (scan c cs).kind with
      | none => rw [lex_of_none hk, hrest]
      | some kind =>
        rw [lex_of_some hk]
        by_cases hcut : kind = .cutEscape
        · subst hcut
          rw [more_of_cutEscape hk, List.take_length, List.drop_length]
          exact congrArg (Option.map _) (lex_nil _)
        · rw [seen_of_ne hcut, hrest, List.any_cons, kind_of, beq_false_of_ne hcut,
            Bool.false_or]
          rfl

end ByteLexer

open ByteLexer

variable {text : List Char}

/-- Read byte by byte, a text has the same tokens. No word of it and no invalid character is cut
inside a character. -/
theorem lex_eq_tokenize (text : List Char) :
    lex 0 (bytes text) = some ((tokenize text).map lexed) := by
  rw [lex_bytes, tokenize, List.map_append, endOffset, endsInEscape, tokens, Nat.zero_add]
  split <;> rfl

theorem sliceUtf8?_of_mem_tokens {t : Token} (ht : t ∈ tokens text) (hk : t.kind ≠ .cutEscape) :
    sliceUtf8? t.span.start t.span.stop (bytes text) = some (bytes t.text) := by
  rw [sliceUtf8?_bytes, slice_of_mem_tokens ht hk, Option.map_some]

theorem sliceUtf8?_of_lt {start stop : Nat} {bs : List UInt8} (h : bs.length < stop) :
    sliceUtf8? start stop bs = none := by
  rw [sliceUtf8?, isBoundary.eq_1 stop, decide_eq_false (Nat.not_le.mpr h), Bool.false_and,
    Bool.and_false, if_neg Bool.false_ne_true]

theorem parse?_eq_none_iff_endsInEscape : Document.parse? text = none ↔ endsInEscape text := by
  rw [Document.parse?]
  split
  next h => exact iff_of_true rfl h
  next h => exact iff_of_false (Option.some_ne_none _) h

/-- A text cannot be read exactly if one of its faults has no text that can be cut out. -/
theorem parse?_eq_none_iff : Document.parse? text = none ↔
    ∃ found, lex 0 (bytes text) = some found ∧ ∃ x ∈ found, x.1.isFault ∧
      sliceUtf8? x.2.start x.2.stop (bytes text) = none := by
  rw [parse?_eq_none_iff_endsInEscape]
  constructor
  · intro h
    obtain ⟨-, before, fault, htokens, -, hk, hstop⟩ := tokens_of_endsInEscape h
    have hfault : fault ∈ tokenize text := by
      rw [tokenize, htokens]
      simp
    refine ⟨_, lex_eq_tokenize text, lexed fault, List.mem_map_of_mem hfault, ?_, ?_⟩
    · rw [lexed, hk]
      rfl
    · exact sliceUtf8?_of_lt (by rw [length_bytes, lexed, hstop]; exact Nat.lt_succ_self _)
  · rintro ⟨found, hfound, x, hx, hfault, hslice⟩
    obtain rfl := Option.some.inj ((lex_eq_tokenize text).symm.trans hfound)
    obtain ⟨t, ht, rfl⟩ := List.mem_map.mp hx
    rcases List.mem_append.mp ht with ht | ht
    · by_contra h
      have hk : t.kind ≠ .cutEscape := fun hk ↦ h (List.any_eq_true.mpr ⟨t, ht, by simp [hk]⟩)
      cases (sliceUtf8?_of_mem_tokens ht hk).symm.trans hslice
    · obtain rfl := List.mem_singleton.mp ht
      cases hfault

end SchemaBindings.Sdl
