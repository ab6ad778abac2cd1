import SchemaBindings.Proofs.Text.Paragraphs
import SchemaBindings.Target.Dialect

namespace SchemaBindings.Comment

open Text

/-- What follows a comment, read from inside it and `depth` further comments. Where comments nest,
each opening mark opens another one. -/
def afterEnd? (nests : Bool) : (depth : Nat) → List Char → Option (List Char)
  | 0, '*' :: '/' :: cs => some cs
  | depth + 1, '*' :: '/' :: cs => afterEnd? nests depth cs
  | depth, c :: d :: cs =>
    if nests = true ∧ c = '/' ∧ d = '*' then afterEnd? nests (depth + 1) cs
    else afterEnd? nests depth (d :: cs)
  | _, _ => none

/-- The text is an indented comment that ends with its last mark and nowhere before. -/
def IsComment (nests : Bool) (indent text : List Char) : Prop :=
  ∃ body, text = indent ++ '/' :: '*' :: (body ++ ['*', '/', '\n']) ∧
    afterEnd? nests 0 (body ++ ['*', '/', '\n']) = some ['\n']

def openings (nests : Bool) : List Char → Nat
  | c :: d :: cs =>
    if nests = true ∧ c = '/' ∧ d = '*' then openings nests cs + 1 else openings nests (d :: cs)
  | _ => 0

variable {nests : Bool} {body : List Char}

theorem afterEnd?_cons {c : Char} {cs : List Char} (depth : Nat)
    (hend : ¬(c = '*' ∧ cs.head? = some '/'))
    (hopen : ¬(nests = true ∧ c = '/' ∧ cs.head? = some '*')) :
    afterEnd? nests depth (c :: cs) = afterEnd? nests depth cs := by
  cases cs with
  | nil => cases depth <;> simp [afterEnd?]
  | cons d cs =>
    rw [afterEnd?, if_neg (by simpa using hopen)]
    · exact fun _ hc hd ↦ hend ⟨hc, by simp [hd]⟩
    · exact fun _ _ hc hd ↦ hend ⟨hc, by simp [hd]⟩

theorem afterEnd?_opening (depth : Nat) (cs : List Char) :
    afterEnd? true depth ('/' :: '*' :: cs) = afterEnd? true (depth + 1) cs := by
  simp [afterEnd?]

theorem afterEnd?_append (hends : AreApart '*' '/' body) (hlast : body.getLast? ≠ some '/')
    (depth : Nat) (rest : List Char) :
    afterEnd? nests depth (body ++ '*' :: '/' :: rest) =
      afterEnd? nests (depth + openings nests body) ('*' :: '/' :: rest) := by
  -- the induction follows the count of openings: the depth grows where it does
  fun_induction openings nests body generalizing depth with
  | case1 c d cs hopen ih =>
    obtain ⟨rfl, rfl, rfl⟩ := hopen
    rw [areApart_cons_iff, areApart_cons_iff] at hends
    rw [List.cons_append, List.cons_append, afterEnd?_opening, ih, Nat.add_right_comm,
      Nat.add_assoc]
    · exact hends.2.2
    · cases cs with
      | nil => simp
      | cons e cs => simpa using hlast
  | case2 c d cs hopen ih =>
    rw [areApart_cons_iff] at hends
    rw [List.cons_append, afterEnd?_cons, ih]
    · exact hends.2
    · simpa using hlast
    · simpa using hends.1
    · simpa using hopen
  | case3 cs hshort =>
    cases cs with
    | nil => rfl
    | cons c cs =>
      cases cs with
      | nil =>
        rw [List.singleton_append, afterEnd?_cons]
        · rfl
        · simp
        · rintro ⟨-, rfl, -⟩
          exact hlast rfl
      | cons d cs => exact absurd rfl (hshort c d cs)

theorem openings_eq_zero_iff :
    openings nests body = 0 ↔ (nests = true → AreApart '/' '*' body) := by
  fun_induction openings nests body with
  | case1 c d cs hopen ih =>
    obtain ⟨rfl, rfl, rfl⟩ := hopen
    simp [AreApart]
  | case2 c d cs hopen ih =>
    rw [ih]
    refine forall_congr' fun hnests ↦ ?_
    have hpair : ¬(c = '/' ∧ d = '*') := fun h ↦ hopen ⟨hnests, h⟩
    rw [areApart_cons_iff (c := c), List.head?_cons, Option.some.injEq]
    exact (and_iff_right hpair).symm
  | case3 cs hshort =>
    cases cs with
    | nil => simp [AreApart]
    | cons c cs =>
      cases cs with
      | nil => simp [AreApart]
      | cons d cs => exact absurd rfl (hshort c d cs)

theorem isComment_iff (indent : List Char) (hends : AreApart '*' '/' body)
    (hlast : body.getLast? ≠ some '/') :
    IsComment nests indent (indent ++ '/' :: '*' :: (body ++ ['*', '/', '\n'])) ↔
      (nests = true → AreApart '/' '*' body) := by
  have hbody : IsComment nests indent (indent ++ '/' :: '*' :: (body ++ ['*', '/', '\n'])) ↔
      afterEnd? nests 0 (body ++ ['*', '/', '\n']) = some ['\n'] := by
    refine ⟨fun ⟨other, heq, hread⟩ ↦ ?_, fun hread ↦ ⟨body, rfl, hread⟩⟩
    have hsame := List.append_cancel_left heq
    rwa [(List.cons.inj (List.cons.inj hsame).2).2]
  rw [hbody, afterEnd?_append hends hlast, Nat.zero_add, ← openings_eq_zero_iff]
  cases openings nests body with
  | zero => simp [afterEnd?]
  | succ n => cases n <;> simp [afterEnd?]

theorem head?_breakEnds (cs : List Char) : (breakEnds cs).head? = cs.head? := by
  fun_cases breakEnds cs <;> rfl

theorem areApart_breakEnds (cs : List Char) : AreApart '*' '/' (breakEnds cs) := by
  fun_induction breakEnds cs with
  | case1 cs ih => simpa [areApart_cons_iff] using ih
  | case2 c cs hend ih =>
    refine areApart_cons_iff.mpr ⟨?_, ih⟩
    rw [head?_breakEnds]
    rintro ⟨rfl, hhead⟩
    obtain ⟨tail, rfl⟩ := List.head?_eq_some_iff.mp hhead
    exact hend tail rfl rfl
  | case3 => exact .nil

theorem areApart_breakEnds_iff (cs : List Char) :
    AreApart '/' '*' (breakEnds cs) ↔ AreApart '/' '*' cs := by
  fun_induction breakEnds cs with
  | case1 cs ih => simp [areApart_cons_iff, head?_breakEnds, ih]
  | case2 c cs _ ih => rw [areApart_cons_iff, areApart_cons_iff, head?_breakEnds, ih]
  | case3 => rfl

section Marks

theorem ne_of_not_isBlank {c d : Char} (hc : ¬isBlank c) (hd : isBlank d) : c ≠ d := by
  rintro rfl
  exact hc hd

variable {a b : Char} (ha : ¬isBlank a) (hb : ¬isBlank b)

include ha

theorem areApart_blanks_append {blanks cs : List Char} (hblanks : ∀ c ∈ blanks, isBlank c) :
    AreApart a b (blanks ++ cs) ↔ AreApart a b cs := by
  induction blanks with
  | nil => rfl
  | cons c blanks ih =>
    obtain ⟨hc, hblanks⟩ := List.forall_mem_cons.mp hblanks
    simp [areApart_cons_iff, (ne_of_not_isBlank ha hc).symm, ih hblanks]

theorem areApart_blanks {blanks : List Char} (hblanks : ∀ c ∈ blanks, isBlank c) :
    AreApart a b blanks := by
  rw [← List.append_nil blanks, areApart_blanks_append ha hblanks]
  exact .nil

include hb

theorem areApart_append_blanks {blanks cs : List Char} (hblanks : ∀ c ∈ blanks, isBlank c) :
    AreApart a b (cs ++ blanks) ↔ AreApart a b cs := by
  have hhead : blanks.head? ≠ some b := fun h ↦ hb (hblanks b (List.mem_of_mem_head? h))
  simp [areApart_append_iff, hhead, areApart_blanks ha hblanks]

variable {indent : List Char} (hindent : ∀ c ∈ indent, isBlank c)

include hindent

theorem areApart_line_iff (cs : List Char) :
    AreApart a b (line indent [' ', '*'] cs) ↔ AreApart a b cs := by
  have hspace : ' ' ≠ a := (ne_of_not_isBlank ha (by decide)).symm
  have hnext : ' ' ≠ b := (ne_of_not_isBlank hb (by decide)).symm
  have hend : ∀ c ∈ ['\n'], isBlank c := List.all_eq_true.mp rfl
  unfold line
  split
  next hblank =>
    rw [areApart_append_blanks ha hb hend, areApart_blanks_append ha hindent]
    simp only [areApart_blanks ha (List.all_eq_true.mp hblank), iff_true]
    simp [hspace, AreApart]
  next =>
    rw [areApart_append_blanks ha hb hend, List.append_assoc, areApart_blanks_append ha hindent]
    simp [areApart_cons_iff, hspace, hnext]

theorem areApart_lines_iff (cs : List Char) :
    AreApart a b (lines indent [' ', '*'] cs) ↔ AreApart a b cs := by
  have hfeed : b ≠ '\n' := ne_of_not_isBlank hb (by decide)
  have hreturn : b ≠ '\r' := ne_of_not_isBlank hb (by decide)
  have hends (p : List Char) : (line indent [' ', '*'] p).getLast? = some '\n' := by
    unfold line
    split <;> exact List.getLast?_concat
  rw [lines, areApart_flatMap_iff (ne_of_not_isBlank ha (by decide)) hends,
    areApart_paragraphs_iff (ne_of_not_isBlank ha (by decide)) ⟨hfeed, hreturn⟩ cs]
  exact forall₂_congr fun p _ ↦ areApart_line_iff ha hb hindent p

theorem areApart_block_iff (cs : List Char) :
    AreApart a b ('*' :: '\n' :: (lines indent [' ', '*'] cs ++ (indent ++ [' ']))) ↔
      AreApart a b cs := by
  have hend : ∀ c ∈ indent ++ [' '], isBlank c :=
    List.forall_mem_append.mpr ⟨hindent, List.all_eq_true.mp rfl⟩
  have hfirst : '\n' ≠ a := (ne_of_not_isBlank ha (by decide)).symm
  have hsecond : '\n' ≠ b := (ne_of_not_isBlank hb (by decide)).symm
  rw [areApart_cons_iff, areApart_cons_iff, areApart_append_blanks ha hb hend,
    areApart_lines_iff ha hb hindent]
  simp [hfirst, hsecond]

end Marks

/-- A comment over several lines ends with its last mark exactly if it opens no other one, which
only an opening mark in the text can do. -/
theorem isComment_block_iff {nests : Bool} {indent : List Char}
    (hindent : ∀ c ∈ indent, isBlank c) (text : List Char) :
    IsComment nests indent (block indent text) ↔ (nests = true → AreApart '/' '*' text) := by
  have hblock : block indent text = indent ++ '/' :: '*' :: ('*' :: '\n' ::
      (lines indent [' ', '*'] (breakEnds text) ++ (indent ++ [' '])) ++ ['*', '/', '\n']) := by
    simp [block]
  rw [hblock, isComment_iff, areApart_block_iff (by decide) (by decide) hindent,
    areApart_breakEnds_iff]
  · rw [areApart_block_iff (by decide) (by decide) hindent]
    exact areApart_breakEnds text
  · simp [List.getLast?_cons]

theorem isComment_deprecated (indent reason : List Char) :
    IsComment false indent (Dialect.typeScript.deprecated indent reason) := by
  have hreason : Dialect.typeScript.deprecated indent reason = indent ++ '/' :: '*' ::
      ("* @deprecated ".toList ++ breakEnds reason ++ [' '] ++ ['*', '/', '\n']) := by
    have hfront : "/** @deprecated ".toList = '/' :: '*' :: "* @deprecated ".toList := by decide
    have hback : " */\n".toList = [' '] ++ ['*', '/', '\n'] := by decide
    have hdeprecated : Dialect.typeScript.deprecated indent reason =
        indent ++ "/** @deprecated ".toList ++ breakEnds reason ++ " */\n".toList := rfl
    rw [hdeprecated, hfront, hback]
    simp only [List.append_assoc, List.cons_append]
  rw [hreason, isComment_iff]
  · exact nofun
  · rw [areApart_append_blanks (by decide) (by decide) (List.all_eq_true.mp rfl),
      areApart_append_iff]
    exact ⟨by decide, areApart_breakEnds reason, fun h ↦ absurd h.1 (by decide)⟩
  · rw [List.getLast?_concat]
    decide

/-- Where comments do not nest, no text breaks out of the comment on a declaration or of the one
that marks it as deprecated. Where they nest, exactly the texts that hold an opening mark do. -/
theorem docComment_isComment {indent : List Char} (hindent : ∀ c ∈ indent, isBlank c)
    (text : List Char) :
    (IsComment true indent (Dialect.kotlin.docComment indent text) ↔ ¬['/', '*'] <:+: text) ∧
      IsComment false indent (Dialect.typeScript.docComment indent text) ∧
      IsComment false indent (Dialect.typeScript.deprecated indent text) := by
  refine ⟨?_, ?_, isComment_deprecated indent text⟩
  · rw [← areApart_iff_not_infix]
    exact (isComment_block_iff hindent text).trans (forall_prop_of_true rfl)
  · exact (isComment_block_iff hindent text).mpr nofun

/-- A closing mark in the text of an indented comment. -/
theorem docComment_isComment_glob :
    (∀ c ∈ [' ', ' '], isBlank c) ∧
      Dialect.kotlin.docComment [' ', ' '] "**/b".toList = "  /**\n   * **\\/b\n   */\n".toList ∧
      IsComment true [' ', ' '] "  /**\n   * **\\/b\n   */\n".toList := by
  have hindent : ∀ c ∈ [' ', ' '], isBlank c := List.all_eq_true.mp rfl
  have hcomment : Dialect.kotlin.docComment [' ', ' '] "**/b".toList =
      "  /**\n   * **\\/b\n   */\n".toList := by decide
  have hplain : ¬['/', '*'] <:+: "**/b".toList := by decide
  exact ⟨hindent, hcomment, hcomment ▸ (docComment_isComment hindent _).1.mpr hplain⟩

/-- An opening mark alone in a text leaves the comment open where comments nest. -/
theorem not_isComment_opening :
    ¬∀ indent text : List Char, (∀ c ∈ indent, isBlank c) →
      IsComment true indent (Dialect.kotlin.docComment indent text) ∧
        IsComment false indent (Dialect.typeScript.docComment indent text) ∧
        IsComment false indent (Dialect.typeScript.deprecated indent text) := by
  intro h
  have hcomment : IsComment true [] (block [] ['/', '*']) :=
    (h [] ['/', '*'] (List.forall_mem_nil _)).1
  exact absurd ((isComment_block_iff (List.forall_mem_nil _) _).mp hcomment rfl) (by decide)

end SchemaBindings.Comment
