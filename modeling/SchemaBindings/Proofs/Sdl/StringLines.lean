import SchemaBindings.Proofs.Sdl.Strings

namespace SchemaBindings.Sdl

open Text

def escapedChars : List Char → List Char
  | '\\' :: c :: cs => c :: escapedChars cs
  | _ :: cs => escapedChars cs
  | [] => []

theorem escapedChars_cons {c : Char} (hc : c ≠ '\\') (cs : List Char) :
    escapedChars (c :: cs) = escapedChars cs := by
  rw [escapedChars]
  exact fun _ _ he _ ↦ hc he

/-- A quote behind `front` begins a string of the text, and `line`, which goes on to the end of the
line, has no quote that closes it. -/
structure OpenAtLineEnd (text front line : List Char) : Prop where
  text_eq : ∃ c rest, (c = '\n' ∨ c = '\r') ∧ text = front ++ '"' :: (line ++ c :: rest)
  begins : ∃ t ∈ tokens text, t.span.start = byteLength front
  onLine : ∀ c ∈ line, c ≠ '\n' ∧ c ≠ '\r'
  isOpen : StaysOpen line ∨ ∃ body, line = body ++ ['\\'] ∧ StaysOpen body

section Closed

variable {body cs : List Char}

theorem exists_body_of_scanString_closed (h : (scanString cs).kind = some .string) :
    ∃ body, cs.take (scanString cs).more = body ++ ['"'] ∧ StaysOpen body := by
  fun_induction scanString cs with
  | case1 => cases h
  | case2 => cases h
  | case3 c cs found ih =>
    obtain ⟨body, htake, hbody⟩ := ih h
    exact ⟨'\\' :: c :: body, by simp [found, htake], hbody.escape⟩
  | case4 c cs _ _ hquote =>
    obtain rfl := beq_iff_eq.mp hquote
    exact ⟨[], rfl, .nil⟩
  | case5 => cases h
  | case6 c cs hend hescape hquote hline found ih =>
    obtain ⟨body, htake, hbody⟩ := ih h
    have hc : c ≠ '\\' := by
      rintro rfl
      cases cs with
      | nil => exact hend rfl rfl
      | cons d cs => exact hescape d cs rfl rfl
    refine ⟨c :: body, by simp [found, htake], hbody.char ?_⟩
    simp_all [isLineEnd]

theorem escapedChars_append (h : StaysOpen body) (rest : List Char) :
    escapedChars (body ++ rest) = escapedChars body ++ escapedChars rest := by
  induction h with
  | nil => rfl
  | escape _ ih => simp only [List.cons_append, escapedChars, ih]
  | char hc _ ih =>
    have hback := fun he ↦ hc (List.mem_cons.mpr (.inl he))
    rw [List.cons_append, escapedChars_cons hback, escapedChars_cons hback, ih]

theorem filter_escapedChars (h : StaysOpen body) :
    (escapedChars body).filter isLineEnd = body.filter isLineEnd := by
  induction h with
  | nil => rfl
  | escape _ ih =>
    have hback : isLineEnd '\\' = false := by decide
    simp only [escapedChars, List.filter_cons, hback, ih, Bool.false_eq_true, if_false]
  | @char c cs hc _ ih =>
    simp only [List.mem_cons, List.not_mem_nil, or_false, not_or] at hc
    obtain ⟨hback, -, hline, hreturn⟩ := hc
    have hplain : ¬isLineEnd c := by simp [isLineEnd, hline, hreturn]
    rw [escapedChars_cons hback, List.filter_cons_of_neg hplain, ih]

theorem filter_isLineEnd_of_string {text : List Char} {t : Token} (ht : t ∈ tokens text)
    (hk : t.kind = .string) :
    t.text.filter isLineEnd = (escapedChars t.text).filter isLineEnd := by
  obtain ⟨p, c, q, kind, -, hscan, rfl⟩ := exists_scan_of_mem_tokensFrom ht
  rw [kind_of] at hk
  subst hk
  obtain ⟨rfl, heq⟩ := scan_eq_scanString hscan (.inl rfl)
  rw [heq] at hscan
  obtain ⟨body, htake, hbody⟩ := exists_body_of_scanString_closed hscan
  have hquote : ¬isLineEnd '"' := by decide
  rw [text_of (by simp), heq, htake, escapedChars_cons (by decide), escapedChars_append hbody,
    List.filter_cons_of_neg hquote, List.filter_append, List.filter_append,
    filter_escapedChars hbody]
  rfl

end Closed

section Open

variable {text front line : List Char}

theorem ne_of_isLineEnd {c d : Char} (hc : isLineEnd c) (hd : ¬isLineEnd d) : c ≠ d := by
  rintro rfl
  exact hd hc

theorem scanString_lineEnd {body : List Char} (h : StaysOpen body) {c : Char} (hc : isLineEnd c)
    (rest : List Char) : scanString (body ++ c :: rest) = ⟨some .invalid, body.length⟩ := by
  have hback : c ≠ '\\' := ne_of_isLineEnd hc (by decide)
  have hquote : c ≠ '"' := ne_of_isLineEnd hc (by decide)
  rw [scanString_append_of_staysOpen h, scanString_cons hback, if_neg (by simpa using hquote),
    if_pos hc, Nat.zero_add]

theorem scanString_escape {body : List Char} (h : StaysOpen body) (c : Char) (rest : List Char) :
    scanString (body ++ '\\' :: c :: rest) =
      ⟨(scanString rest).kind, (scanString rest).more + 2 + body.length⟩ := by
  rw [scanString_append_of_staysOpen h, scanString]

theorem OpenAtLineEnd.exists_token (h : OpenAtLineEnd text front line) :
    ∃ c rest kind, isLineEnd c ∧ (scanString (line ++ c :: rest)).kind = some kind ∧
      ∀ t ∈ tokens text, t.span.start = byteLength front → t = .of kind (byteLength front)
        ('"' :: (line ++ c :: rest).take (scanString (line ++ c :: rest)).more) := by
  obtain ⟨⟨c, rest, hc, rfl⟩, ⟨t, ht, hstart⟩, -, hopen⟩ := h
  have hend : isLineEnd c := by rcases hc with rfl | rfl <;> rfl
  have hscan : scan '"' (line ++ c :: rest) = scanString (line ++ c :: rest) := by
    rcases hopen with hopen | ⟨body, rfl, hbody⟩
    · exact scan_append_of_staysOpen hopen (ne_of_isLineEnd hend (by decide)) rest
    · rw [List.append_assoc, List.singleton_append]
      exact scan_append_of_staysOpen hbody (by decide) _
  obtain ⟨kind, hk, -⟩ := eq_of_start_eq ht hstart
  rw [hscan] at hk
  refine ⟨c, rest, kind, hend, hk, fun u hu hustart ↦ ?_⟩
  obtain ⟨kind', hk', rfl⟩ := eq_of_start_eq hu hustart
  rw [hscan] at hk'
  rw [hscan, Option.some.inj (hk'.symm.trans hk)]

theorem OpenAtLineEnd.mem_tokens_of_staysOpen (h : OpenAtLineEnd text front line)
    (hopen : StaysOpen line) :
    ⟨.invalid, ⟨byteLength front, byteLength (front ++ '"' :: line)⟩, '"' :: line⟩ ∈
      tokens text := by
  obtain ⟨c, rest, kind, hc, hk, heq⟩ := h.exists_token
  obtain ⟨t, ht, hstart⟩ := h.begins
  have htoken := heq t ht hstart
  rw [scanString_lineEnd hopen hc] at hk htoken
  obtain rfl := Option.some.inj hk
  rw [List.take_left] at htoken
  rw [htoken] at ht
  rw [byteLength_append]
  exact ht

theorem OpenAtLineEnd.stop_lt (h : OpenAtLineEnd text front line) (hopen : ¬StaysOpen line) :
    ∀ t ∈ tokens text, t.span.start = byteLength front →
      byteLength (front ++ '"' :: line) < t.span.stop := by
  intro t ht hstart
  obtain ⟨c, rest, kind, hc, hk, heq⟩ := h.exists_token
  obtain ⟨body, rfl, hbody⟩ := h.isOpen.resolve_left hopen
  have htoken := heq t ht hstart
  rw [List.append_assoc, List.singleton_append, scanString_escape hbody, Nat.add_comm _ body.length,
    List.take_length_add_append, List.take_succ_cons, List.take_succ_cons] at htoken
  refine htoken ▸ Nat.lt_of_lt_of_le ?_ (le_stop_of _ _ _)
  have hpos := c.utf8Size_pos
  simp only [byteLength_append, byteLength_cons, byteLength_nil]
  omega

end Open

/-- The line ends in a string are those that its escapes take. A string that is open at the end of
its line is a fault that stops there if and only if the line leaves it open, without half an escape
at its end; otherwise the string goes on behind the line end. -/
theorem tokenize_string_lineEnds (text : List Char) :
    (∀ t ∈ tokenize text, t.kind = .string →
      t.text.filter isLineEnd = (escapedChars t.text).filter isLineEnd) ∧
    ∀ front line, OpenAtLineEnd text front line →
      (⟨.invalid, ⟨byteLength front, byteLength (front ++ '"' :: line)⟩, '"' :: line⟩ ∈
          tokenize text ↔ StaysOpen line) ∧
      (¬StaysOpen line → ∀ t ∈ tokens text, t.span.start = byteLength front →
        byteLength (front ++ '"' :: line) < t.span.stop) := by
  refine ⟨fun t ht hk ↦ ?_, fun front line h ↦ ⟨⟨fun hfault ↦ ?_, fun hopen ↦ ?_⟩, h.stop_lt⟩⟩
  · rcases List.mem_append.mp ht with ht | ht
    · exact filter_isLineEnd_of_string ht hk
    · obtain rfl := List.mem_singleton.mp ht
      cases hk
  · by_contra hopen
    have hmem := (List.mem_append.mp hfault).resolve_right (by simp)
    exact Nat.lt_irrefl _ (h.stop_lt hopen _ hmem rfl)
  · exact List.mem_append_left _ (h.mem_tokens_of_staysOpen hopen)

/-- A string that its line end cuts off, and one that goes on in a second line. -/
theorem tokenize_string_lineEnds_two :
    OpenAtLineEnd "\"a\n\"b\\\nc\"".toList [] ['a'] ∧
      ⟨.invalid, ⟨0, 2⟩, ['"', 'a']⟩ ∈ tokenize "\"a\n\"b\\\nc\"".toList ∧
      ⟨.string, ⟨3, 9⟩, "\"b\\\nc\"".toList⟩ ∈ tokenize "\"a\n\"b\\\nc\"".toList ∧
      "\"b\\\nc\"".toList.filter isLineEnd =
        (escapedChars "\"b\\\nc\"".toList).filter isLineEnd := by
  have hline : StaysOpen ['a'] := .char (by decide) .nil
  have hopen : OpenAtLineEnd "\"a\n\"b\\\nc\"".toList [] ['a'] :=
    { text_eq := ⟨'\n', "\"b\\\nc\"".toList, .inl rfl, rfl⟩
      begins := ⟨⟨.invalid, ⟨0, 2⟩, ['"', 'a']⟩, by decide, rfl⟩
      onLine := by simp
      isOpen := .inl hline }
  have hstring : ⟨.string, ⟨3, 9⟩, "\"b\\\nc\"".toList⟩ ∈
      tokenize "\"a\n\"b\\\nc\"".toList := by decide
  obtain ⟨hstrings, hfaults⟩ := tokenize_string_lineEnds "\"a\n\"b\\\nc\"".toList
  exact ⟨hopen, (hfaults [] ['a'] hopen).1.mpr hline, hstring, hstrings _ hstring rfl⟩

/-- A string with nothing in it but an escaped line end goes beyond its line. -/
theorem not_string_lineEnds :
    ¬∀ text : List Char,
      (∀ t ∈ tokenize text, t.kind = .string → ∀ c ∈ t.text, c ≠ '\n' ∧ c ≠ '\r') ∧
      ∀ front line, OpenAtLineEnd text front line →
        ⟨.invalid, ⟨byteLength front, byteLength (front ++ '"' :: line)⟩, '"' :: line⟩ ∈
          tokenize text := by
  intro h
  have hstring : ⟨.string, ⟨0, 4⟩, ['"', '\\', '\n', '"']⟩ ∈ tokenize ['"', '\\', '\n', '"'] := by
    decide
  exact ((h _).1 _ hstring rfl '\n' (by simp)).1 rfl

end SchemaBindings.Sdl
