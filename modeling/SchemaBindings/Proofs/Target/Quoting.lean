import SchemaBindings.Proofs.Sdl.Strings
import SchemaBindings.Target.Quoting

namespace SchemaBindings.Quoting

open Text Sdl

/-- What leaves a literal open: a backslash takes the next character with it, and there is no other
backslash, no other delimiter and no other start of an interpolation. -/
inductive Closed (q : Quoting) : List Char → Prop
  | nil : Closed q []
  | escape {c : Char} {cs : List Char} : Closed q cs → Closed q ('\\' :: c :: cs)
  | char {c : Char} {cs : List Char} :
      c ≠ '\\' → c ≠ q.delimiter → ¬(c = '$' ∧ q.dollar) → Closed q cs → Closed q (c :: cs)

def readBody : List Char → List Char
  | [] => []
  | '\\' :: 'n' :: cs => '\n' :: readBody cs
  | '\\' :: 'r' :: cs => '\r' :: readBody cs
  | '\\' :: 't' :: cs => '\t' :: readBody cs
  | '\\' :: c :: cs => c :: readBody cs
  | c :: cs => c :: readBody cs

theorem readBody_cons {c : Char} (hc : c ≠ '\\') (cs : List Char) :
    readBody (c :: cs) = c :: readBody cs := by
  rw [readBody]
  · exact fun _ he _ ↦ hc he
  · exact fun _ he _ ↦ hc he
  · exact fun _ he _ ↦ hc he
  · exact fun _ _ he _ ↦ hc he

def signs : List (Char × Char) :=
  [('\\', '\\'), ('n', '\n'), ('r', '\r'), ('t', '\t'), ('$', '$'), ('"', '"'), ('\x27', '\x27')]

/-- A text with what is written for it: a sign after a backslash, or a character as it is. -/
inductive Escapes (q : Quoting) : List Char → List Char → Prop
  | nil : Escapes q [] []
  | escape {sign c : Char} {s cs : List Char} :
      (sign, c) ∈ signs → Escapes q s cs → Escapes q (c :: s) ('\\' :: sign :: cs)
  | char {c : Char} {s cs : List Char} :
      c ∉ ['\\', '\n', '\r', '\t'] → c ≠ q.delimiter → ¬(c = '$' ∧ q.dollar) → Escapes q s cs →
      Escapes q (c :: s) (c :: cs)

variable {q : Quoting} {s cs : List Char}

theorem escapes_body (hq : q.delimiter = '"' ∨ q.delimiter = '\x27') (s : List Char) :
    q.Escapes s (q.body s) := by
  induction s with
  | nil => exact .nil
  | cons c s ih =>
    have hbody : q.body (c :: s) = q.escapeChar c ++ q.body s := rfl
    rw [hbody, escapeChar]
    split_ifs with hback hfeed hreturn htab hdollar hdelimiter
    · exact .escape (by simp [hback, signs]) ih
    · exact .escape (by simp [hfeed, signs]) ih
    · exact .escape (by simp [hreturn, signs]) ih
    · exact .escape (by simp [htab, signs]) ih
    · exact .escape (by simp [hdollar.1, signs]) ih
    · refine .escape ?_ ih
      rcases hq with hq | hq <;> simp [hdelimiter, hq, signs]
    · exact .char (by simp [hback, hfeed, hreturn, htab]) hdelimiter hdollar ih

theorem Escapes.closed (h : q.Escapes s cs) : q.Closed cs := by
  induction h with
  | nil => exact .nil
  | escape _ _ ih => exact .escape ih
  | char hplain hdelimiter hdollar _ ih =>
    exact .char (fun he ↦ hplain (by simp [he])) hdelimiter hdollar ih

theorem Escapes.notMem_control (h : q.Escapes s cs) : ∀ c ∈ cs, c ∉ ['\n', '\r', '\t'] := by
  induction h with
  | nil => exact nofun
  | escape hsign _ ih =>
    have hall : ∀ p ∈ signs, p.1 ∉ ['\n', '\r', '\t'] := by decide
    exact List.forall_mem_cons.mpr ⟨by decide, List.forall_mem_cons.mpr ⟨hall _ hsign, ih⟩⟩
  | char hplain _ _ _ ih =>
    exact List.forall_mem_cons.mpr ⟨fun hmem ↦ hplain (List.mem_cons_of_mem _ hmem), ih⟩

theorem Escapes.readBody_eq (h : q.Escapes s cs) : readBody cs = s := by
  induction h with
  | nil => rfl
  | escape hsign _ ih =>
    have hall : ∀ p ∈ signs, ∀ cs, readBody ('\\' :: p.1 :: cs) = p.2 :: readBody cs := by
      simp [signs, readBody]
    rw [hall _ hsign, ih]
  | char hplain _ _ _ ih => rw [readBody_cons fun he ↦ hplain (by simp [he]), ih]

theorem Escapes.staysOpen (h : q.Escapes s cs) (hq : q.delimiter = '"') : StaysOpen cs := by
  induction h with
  | nil => exact .nil
  | escape _ _ ih => exact .escape ih
  | char hplain hdelimiter _ _ ih =>
    refine .char ?_ ih
    rw [hq] at hdelimiter
    simp_all

theorem Escapes.unescape_eq (h : q.Escapes s cs) : unescape cs = s := by
  induction h with
  | nil => rfl
  | escape hsign _ ih =>
    have hall : ∀ p ∈ signs, p.1 ≠ 'u' ∧ escaped p.1 = p.2 := by decide
    obtain ⟨hu, hescaped⟩ := hall _ hsign
    rw [unescape_escaped hu, hescaped, ih]
  | char hplain _ _ _ ih => rw [unescape_cons fun he ↦ hplain (by simp [he]), ih]

section DoubleQuotes

variable (hq : q.delimiter = '"')

include hq

theorem tokenize_quote (s : List Char) :
    tokenize (q.quote s) = [⟨.string, ⟨0, byteLength (q.quote s)⟩, q.quote s⟩,
      ⟨.endOfInput, .empty (byteLength (q.quote s)), []⟩] := by
  have hquote : q.quote s = '"' :: (q.body s ++ ['"']) := by rw [quote, hq]; rfl
  rw [hquote]
  exact tokenize_of_scan (scan_quoted ((escapes_body (.inl hq) s).staysOpen hq)) (by simp)

theorem stringValue_quote (s : List Char) : stringValue (q.quote s) = s := by
  rw [quote, hq, stringValue]
  exact (congrArg unescape (stripMarks_append ['"'] (q.body s))).trans
    (escapes_body (.inl hq) s).unescape_eq

end DoubleQuotes

/-- A literal is closed by its last quote and no other, stays on one line, and stands for its text.
Between double quotes it is a single string of a schema that stands for the text. -/
theorem quote_closed (hq : q.delimiter = '"' ∨ q.delimiter = '\x27') (s : List Char) :
    q.quote s = q.delimiter :: q.body s ++ [q.delimiter] ∧ q.Closed (q.body s) ∧
      (∀ c ∈ q.body s, c ∉ ['\n', '\r', '\t']) ∧ readBody (q.body s) = s ∧
      (q.delimiter = '"' →
        tokenize (q.quote s) = [⟨.string, ⟨0, byteLength (q.quote s)⟩, q.quote s⟩,
          ⟨.endOfInput, .empty (byteLength (q.quote s)), []⟩] ∧
        stringValue (q.quote s) = s) := by
  have hbody := escapes_body hq s
  refine ⟨rfl, hbody.closed, hbody.notMem_control, hbody.readBody_eq, fun hdouble ↦ ?_⟩
  exact ⟨tokenize_quote hdouble s, stringValue_quote hdouble s⟩

/-- A price in quotes and a backslash at the end of a line, for a target that interpolates. -/
theorem quote_closed_price :
    Quoting.body ⟨'"', true⟩ "\"$5\"\t\\\n".toList = "\\\"\\$5\\\"\\t\\\\\\n".toList ∧
      Closed ⟨'"', true⟩ "\\\"\\$5\\\"\\t\\\\\\n".toList ∧
      stringValue "\"\\\"\\$5\\\"\\t\\\\\\n\"".toList = "\"$5\"\t\\\n".toList := by
  have hbody : Quoting.body ⟨'"', true⟩ "\"$5\"\t\\\n".toList =
      "\\\"\\$5\\\"\\t\\\\\\n".toList := by decide
  obtain ⟨hquote, hclosed, -, -, hread⟩ :=
    quote_closed (q := ⟨'"', true⟩) (.inl rfl) "\"$5\"\t\\\n".toList
  rw [hbody] at hquote hclosed
  refine ⟨hbody, hclosed, ?_⟩
  exact (congrArg stringValue hquote.symm).trans (hread rfl).2

end SchemaBindings.Quoting
