import SchemaBindings.Proofs.Sdl.Layout
import SchemaBindings.Sdl.StringValue

namespace SchemaBindings.Sdl

open Text

theorem of_eq {k : TokenKind} (hk : k ≠ .cutEscape) (offset : Nat) (text : List Char) :
    Token.of k offset text = ⟨k, ⟨offset, offset + byteLength text⟩, text⟩ := by
  unfold Token.of
  split
  · exact absurd rfl hk
  · rfl

theorem tokensFrom_of_scan {c : Char} {cs rest : List Char} {k : TokenKind}
    (h : scan c (cs ++ rest) = ⟨some k, cs.length⟩) (hk : k ≠ .cutEscape) (offset : Nat) :
    tokensFrom 0 offset (c :: cs ++ rest) =
      ⟨k, ⟨offset, offset + byteLength (c :: cs)⟩, c :: cs⟩ ::
        tokensFrom 0 (offset + byteLength (c :: cs)) rest := by
  rw [List.cons_append, tokensFrom, h]
  simp only [List.take_left, of_eq hk, tokensFrom_length, byteLength_cons, Nat.add_assoc]

theorem tokenize_of_scan {c : Char} {cs : List Char} {k : TokenKind}
    (h : scan c cs = ⟨some k, cs.length⟩) (hk : k ≠ .cutEscape) :
    tokenize (c :: cs) = [⟨k, ⟨0, byteLength (c :: cs)⟩, c :: cs⟩,
      ⟨.endOfInput, .empty (byteLength (c :: cs)), []⟩] := by
  have htokens : tokens (c :: cs) = [⟨k, ⟨0, byteLength (c :: cs)⟩, c :: cs⟩] := by
    rw [← List.append_nil cs] at h
    have hall := tokensFrom_of_scan (h.trans (by rw [List.append_nil])) hk 0
    rwa [List.append_nil, Nat.zero_add] at hall
  have hclosed : endsInEscape (c :: cs) = false := by
    simp [endsInEscape, htokens, hk]
  simp [tokenize, htokens, endOffset, hclosed]

theorem scan_quoted_append {body rest : List Char} (h : StaysOpen body)
    (hrest : ∀ c ∈ rest.head?, c ≠ '"') :
    scan '"' (body ++ ['"'] ++ rest) = ⟨some .string, (body ++ ['"']).length⟩ := by
  have hscan : scanString (body ++ ['"'] ++ rest) = ⟨some .string, (body ++ ['"']).length⟩ := by
    rw [List.append_assoc, scanString_append_of_staysOpen h, List.length_append]
    exact congrArg (Scan.mk (some .string)) (Nat.add_comm _ _)
  rw [← hscan]
  cases h with
  | nil =>
    cases rest with
    | nil => rfl
    | cons c rest =>
      rw [List.nil_append, List.singleton_append, scan]
      · rfl
      · exact fun _ h ↦ hrest c rfl (List.cons.inj (List.cons.inj h).2).1
      · exact fun _ h ↦ absurd h (by decide)
  | escape => rfl
  | char hc _ => exact scan_quote (fun he ↦ hc (by simp [he])) _

theorem scan_quoted {body : List Char} (h : StaysOpen body) :
    scan '"' (body ++ ['"']) = ⟨some .string, (body ++ ['"']).length⟩ := by
  have hnone : ∀ c ∈ ([] : List Char).head?, c ≠ '"' := nofun
  have hscan := scan_quoted_append h hnone
  rwa [List.append_nil] at hscan

theorem stripMarks_append (mark cs : List Char) : stripMarks mark (mark ++ cs ++ mark) = cs := by
  have hlength : (mark ++ cs ++ mark).length - 2 * mark.length = cs.length := by
    simp only [List.length_append]
    omega
  have hdrop : (mark ++ cs ++ mark).drop mark.length = cs ++ mark := by
    rw [List.append_assoc, List.drop_left]
  have hfront : mark.isPrefixOf (mark ++ cs ++ mark) = true :=
    List.isPrefixOf_iff_prefix.mpr (List.append_assoc mark cs mark ▸ List.prefix_append _ _)
  have hback : mark.isSuffixOf (cs ++ mark) = true :=
    List.isSuffixOf_iff_suffix.mpr (List.suffix_append _ _)
  rw [stripMarks, hdrop, hlength, hfront, hback, Bool.and_self, if_pos rfl, List.take_left]

theorem unescape_cons {c : Char} (hc : c ≠ '\\') (cs : List Char) :
    unescape (c :: cs) = c :: unescape cs := by
  rw [unescape]
  · exact fun he _ ↦ hc he
  · exact fun _ _ _ _ _ he _ ↦ hc he
  · exact fun _ he _ ↦ hc he
  · exact fun _ _ he _ ↦ hc he

theorem unescape_escaped {c : Char} (hc : c ≠ 'u') (cs : List Char) :
    unescape ('\\' :: c :: cs) = escaped c :: unescape cs := by
  rw [unescape]
  · exact fun _ _ _ _ _ he _ ↦ hc he
  · exact fun he ↦ hc he

def IsHexDigit (n : Nat) (c : Char) : Prop :=
  n < 16 ∧ (c = Nat.digitChar n ∨ c = (Nat.digitChar n).toUpper)

instance (n : Nat) (c : Char) : Decidable (IsHexDigit n c) :=
  inferInstanceAs (Decidable (_ ∧ _))

theorem IsHexDigit.hexDigit?_eq {n : Nat} {c : Char} (h : IsHexDigit n c) :
    hexDigit? c = some n := by
  have hall : ∀ n < 16, hexDigit? (Nat.digitChar n) = some n ∧
      hexDigit? (Nat.digitChar n).toUpper = some n := by decide
  obtain ⟨hn, rfl | rfl⟩ := h
  · exact (hall n hn).1
  · exact (hall n hn).2

/-- The escape of a code unit: four digits after a backslash and the letter `u`. -/
inductive EscapesUnit (unit : Nat) : List Char → Prop
  | digits {a b c d : Char} :
      IsHexDigit (unit / 0x1000) a → IsHexDigit (unit / 0x100 % 0x10) b →
      IsHexDigit (unit / 0x10 % 0x10) c → IsHexDigit (unit % 0x10) d →
      EscapesUnit unit ['\\', 'u', a, b, c, d]

theorem EscapesUnit.unescape_append {unit : Nat} {w : List Char} (h : EscapesUnit unit w)
    (rest : List Char) : unescape (w ++ rest) =
      (if unit.isValidChar then Char.ofNat unit else '\ufffd') :: unescape rest := by
  obtain ⟨ha, hb, hc, hd⟩ := h
  rename_i a b c d
  have hplus : a ≠ '+' := by
    rintro rfl
    exact absurd ha.hexDigit?_eq (by simp [show hexDigit? '+' = none by decide])
  have hnumber : hexNumber? [a, b, c, d] = some unit := by
    rw [hexNumber?]
    · simp only [hexDigits?, List.foldlM_cons, List.foldlM_nil, ha.hexDigit?_eq, hb.hexDigit?_eq,
        hc.hexDigit?_eq, hd.hexDigit?_eq, Option.map_some, Option.bind_eq_bind, Option.bind_some]
      exact congrArg some (by omega)
    · exact fun _ he ↦ hplus (List.cons.inj he).1
  simp only [List.cons_append, List.nil_append, unescape, hexChar, hnumber]

def codeUnits (c : Char) : List Nat :=
  if c.toNat < 0x10000 then [c.toNat]
  else [0xD800 + (c.toNat - 0x10000) / 0x400, 0xDC00 + (c.toNat - 0x10000) % 0x400]

theorem toNat_lt (c : Char) : c.toNat < 0x110000 := by
  have hvalid : c.toNat < 0xD800 ∨ 0xDFFF < c.toNat ∧ c.toNat < 0x110000 := c.valid
  omega

theorem eq_of_codeUnits_eq_one {c : Char} {unit : Nat} (h : codeUnits c = [unit]) :
    (if unit.isValidChar then Char.ofNat unit else '\ufffd') = c := by
  unfold codeUnits at h
  split at h
  · obtain rfl := List.singleton_inj.mp h
    have hvalid : c.toNat.isValidChar := c.valid
    rw [if_pos hvalid, Char.ofNat_toNat]
  · cases h

theorem not_isValidChar_of_codeUnits {c : Char} {high low : Nat} (h : codeUnits c = [high, low]) :
    ¬high.isValidChar ∧ ¬low.isValidChar := by
  have hbound := toNat_lt c
  unfold codeUnits at h
  split at h
  · cases h
  · simp only [List.cons.injEq, and_true] at h
    obtain ⟨rfl, rfl⟩ := h
    simp only [Nat.isValidChar]
    omega

/-- A way to write a character between the quotes of a string. -/
inductive CharForm where
  | itself
  | short
  /-- The escape of its only code unit. -/
  | unit
  /-- The escapes of both its code units. -/
  | pair
  deriving DecidableEq

def shortEscapes : List (Char × Char) :=
  [('"', '"'), ('\\', '\\'), ('/', '/'), ('b', '\x08'), ('f', '\x0c'), ('n', '\n'), ('r', '\r'),
    ('t', '\t')]

inductive CharForm.Writes : CharForm → Char → List Char → Prop
  | itself {c : Char} : c ∉ ['"', '\\', '\n', '\r'] → Writes .itself c [c]
  | short {sign c : Char} : (sign, c) ∈ shortEscapes → Writes .short c ['\\', sign]
  | unit {c : Char} {n : Nat} {w : List Char} :
      codeUnits c = [n] → EscapesUnit n w → Writes .unit c w
  | pair {c : Char} {high low : Nat} {w w' : List Char} :
      codeUnits c = [high, low] → EscapesUnit high w → EscapesUnit low w' →
      Writes .pair c (w ++ w')

/-- A text with the way each of its characters is written, and what then stands between the
quotes. -/
inductive WrittenAs : List CharForm → List Char → List Char → Prop
  | nil : WrittenAs [] [] []
  | cons {f : CharForm} {fs : List CharForm} {c : Char} {s w body : List Char} :
      f.Writes c w → WrittenAs fs s body → WrittenAs (f :: fs) (c :: s) (w ++ body)

/-- What is read for a character. -/
def CharForm.read : CharForm → Char → List Char
  | pair, _ => ['\ufffd', '\ufffd']
  | _, c => [c]

theorem CharForm.Writes.unescape_append {f : CharForm} {c : Char} {w : List Char} (h : f.Writes c w)
    (rest : List Char) : unescape (w ++ rest) = f.read c ++ unescape rest := by
  cases h with
  | itself hc => exact unescape_cons (fun he ↦ hc (by simp [he])) rest
  | short hsign =>
    rename_i sign
    have hall : ∀ p ∈ shortEscapes, p.1 ≠ 'u' ∧ escaped p.1 = p.2 := by decide
    obtain ⟨hu, hescaped⟩ := hall _ hsign
    rw [List.cons_append, List.cons_append, unescape_escaped hu, hescaped]
    rfl
  | unit hunits hw =>
    rw [hw.unescape_append, eq_of_codeUnits_eq_one hunits]
    rfl
  | pair hunits hw hw' =>
    obtain ⟨hhigh, hlow⟩ := not_isValidChar_of_codeUnits hunits
    rw [List.append_assoc, hw.unescape_append, hw'.unescape_append, if_neg hhigh, if_neg hlow]
    rfl

section Spelled

variable {forms : List CharForm} {s body : List Char}

theorem unescape_of_writtenAs (h : WrittenAs forms s body) :
    unescape body = (List.zipWith CharForm.read forms s).flatten := by
  induction h with
  | nil => rfl
  | cons hw _ ih => rw [hw.unescape_append, ih, List.zipWith_cons_cons, List.flatten_cons]

theorem length_of_writtenAs (h : WrittenAs forms s body) :
    (List.zipWith CharForm.read forms s).flatten.length = s.length + forms.count .pair := by
  induction h with
  | nil => rfl
  | @cons f fs c s w body _ _ ih =>
    rw [List.zipWith_cons_cons, List.flatten_cons, List.length_append, ih, List.length_cons]
    cases f <;> simp [CharForm.read] <;> omega

theorem read_of_notMem_pair (h : WrittenAs forms s body) (hpair : CharForm.pair ∉ forms) :
    (List.zipWith CharForm.read forms s).flatten = s := by
  induction h with
  | nil => rfl
  | @cons f fs c s w body _ _ ih =>
    obtain ⟨hf, hfs⟩ := not_or.mp (List.mem_cons.not.mp hpair)
    rw [List.zipWith_cons_cons, List.flatten_cons, ih hfs]
    cases f with
    | pair => exact absurd rfl hf
    | _ => rfl

/-- A string stands for the text that is written in it, each pair of code units read as two
replacement characters; so it is the text itself if and only if no pair is written. -/
theorem stringValue_of_writtenAs (h : WrittenAs forms s body) :
    stringValue ('"' :: body ++ ['"']) = (List.zipWith CharForm.read forms s).flatten ∧
      (stringValue ('"' :: body ++ ['"']) = s ↔ CharForm.pair ∉ forms) := by
  have hvalue : stringValue ('"' :: body ++ ['"']) =
      (List.zipWith CharForm.read forms s).flatten := by
    rw [stringValue, ← unescape_of_writtenAs h]
    exact congrArg unescape (stripMarks_append ['"'] body)
  refine ⟨hvalue, fun heq ↦ ?_, fun hpair ↦ hvalue.trans (read_of_notMem_pair h hpair)⟩
  have hlength := length_of_writtenAs h
  rw [← hvalue, heq] at hlength
  exact List.count_eq_zero.mp (by omega)

end Spelled

/-- An accent in digits, a line feed as an escape and a face as itself. -/
theorem stringValue_of_writtenAs_face :
    WrittenAs [.unit, .short, .itself] "é\n😀".toList "\\u00E9\\n😀".toList ∧
      stringValue "\"\\u00E9\\n😀\"".toList = "é\n😀".toList := by
  have hwritten : WrittenAs [.unit, .short, .itself] "é\n😀".toList "\\u00E9\\n😀".toList := by
    refine .cons (w := ['\\', 'u', '0', '0', 'E', '9']) (.unit (n := 0xE9) (by decide) ?_)
      (.cons (w := ['\\', 'n']) (.short (by decide))
        (.cons (w := ['😀']) (.itself (by decide)) .nil))
    exact .digits (by decide) (by decide) (by decide) (by decide)
  exact ⟨hwritten, (stringValue_of_writtenAs hwritten).2.mpr (by decide)⟩

/-- A face that is written by its two code units is lost. -/
theorem not_stringValue_pair :
    ¬∀ (forms : List CharForm) (s body : List Char), WrittenAs forms s body →
      stringValue ('"' :: body ++ ['"']) = s := by
  intro h
  have hhigh : EscapesUnit 0xD83D ['\\', 'u', 'D', '8', '3', 'D'] :=
    .digits (by decide) (by decide) (by decide) (by decide)
  have hlow : EscapesUnit 0xDE00 ['\\', 'u', 'D', 'E', '0', '0'] :=
    .digits (by decide) (by decide) (by decide) (by decide)
  have hwritten := WrittenAs.cons (.pair (c := '😀') (by decide) hhigh hlow) .nil
  exact absurd (h _ _ _ hwritten) (by decide)

end SchemaBindings.Sdl
