import SchemaBindings.Proofs.Sdl.Strings
import SchemaBindings.Proofs.Source.Overwriting

namespace SchemaBindings.Sdl

open Text

def escapeBlock : List Char → List Char
  | [] => []
  | '"' :: '"' :: '"' :: cs => '\\' :: '"' :: '"' :: '"' :: escapeBlock cs
  | c :: cs => c :: escapeBlock cs

/-- Lines as a block string whose quotes stand on lines of their own. -/
def blockString (indent : List Char) (lines : List (List Char)) : List Char :=
  ['"', '"', '"', '\n'] ++ endedLines (lines.map fun line ↦ indent ++ escapeBlock line) ++ indent ++
    ['"', '"', '"']

/-- Lines that a block string can hold: there are no blank ones to drop, and an indentation is all
that they have in common. -/
structure IsBlockText (lines : List (List Char)) : Prop where
  ne_nil : lines ≠ []
  noLineEnd : ∀ line ∈ lines, '\n' ∉ line ∧ '\r' ∉ line
  first : ∀ line ∈ lines.head?, ¬allBlank line
  last : ∀ line ∈ lines.getLast?, ¬allBlank line
  flush : ∃ line ∈ lines, ¬allBlank line ∧ ∀ c ∈ line.head?, ¬isIndent c

theorem exists_tail_of_escapeBlock_eq {cs rest tail : List Char}
    (h : escapeBlock cs ++ '\n' :: rest = '"' :: tail) :
    ∃ cs', cs = '"' :: cs' ∧ escapeBlock cs' ++ '\n' :: rest = tail := by
  fun_cases escapeBlock cs with
  | case1 => simp [escapeBlock] at h
  | case2 cs => simp [escapeBlock] at h
  | case3 c cs hc =>
    rw [escapeBlock, List.cons_append, List.cons.injEq] at h
    · obtain ⟨rfl, rfl⟩ := h
      exact ⟨cs, rfl, rfl⟩
    · exact hc

theorem escapeBlock_append_ne (cs rest tail : List Char) :
    escapeBlock cs ++ '\n' :: rest ≠ '"' :: '"' :: '"' :: tail := by
  intro h
  obtain ⟨cs₁, rfl, h₁⟩ := exists_tail_of_escapeBlock_eq h
  obtain ⟨cs₂, rfl, h₂⟩ := exists_tail_of_escapeBlock_eq h₁
  obtain ⟨cs₃, rfl, -⟩ := exists_tail_of_escapeBlock_eq h₂
  simp [escapeBlock] at h

theorem unescapeBlock_escapeBlock (line rest : List Char) :
    unescapeBlock (escapeBlock line ++ '\n' :: rest) = line ++ '\n' :: unescapeBlock rest := by
  fun_induction escapeBlock line with
  | case1 => simp [unescapeBlock]
  | case2 cs ih => simp [unescapeBlock, ih]
  | case3 c cs _ ih =>
    rw [List.cons_append, unescapeBlock, ih, List.cons_append]
    exact fun tail _ ↦ escapeBlock_append_ne cs rest tail

theorem scanBlockString_escapeBlock (line rest : List Char) :
    scanBlockString (escapeBlock line ++ '\n' :: rest) = ⟨(scanBlockString rest).kind,
      (scanBlockString rest).more + (escapeBlock line ++ ['\n']).length⟩ := by
  fun_induction escapeBlock line with
  | case1 => simp [scanBlockString]
  | case2 cs ih =>
    simp [scanBlockString, ih]
    omega
  | case3 c cs hc ih =>
    have hopen (tail : List Char) :
        c :: (escapeBlock cs ++ '\n' :: rest) ≠ '"' :: '"' :: '"' :: tail := by
      have hne := escapeBlock_append_ne (c :: cs) rest tail
      rwa [escapeBlock, List.cons_append] at hne
      exact hc
    rw [List.cons_append, scanBlockString, ih]
    · simp
      omega
    · exact fun tail he htail ↦ hopen tail (by rw [he, htail])
    · exact fun tail _ ↦ escapeBlock_append_ne cs rest tail

theorem unescapeBlock_endedLines (lines : List (List Char)) (rest : List Char) :
    unescapeBlock (endedLines (lines.map escapeBlock) ++ rest) =
      endedLines lines ++ unescapeBlock rest := by
  induction lines with
  | nil => rfl
  | cons line lines ih =>
    rw [List.map_cons, endedLines_cons, List.append_assoc, List.cons_append,
      unescapeBlock_escapeBlock, ih, endedLines_cons, List.append_assoc, List.cons_append]

theorem scanBlockString_endedLines (lines : List (List Char)) (rest : List Char) :
    scanBlockString (endedLines (lines.map escapeBlock) ++ rest) = ⟨(scanBlockString rest).kind,
      (scanBlockString rest).more + (endedLines (lines.map escapeBlock)).length⟩ := by
  induction lines with
  | nil => rfl
  | cons line lines ih =>
    rw [List.map_cons, endedLines_cons, List.append_assoc, List.cons_append,
      scanBlockString_escapeBlock, ih]
    simp
    omega

section Indentation

variable {indent : List Char} (hindent : ∀ c ∈ indent, isIndent c)

include hindent

theorem notMem_of_indent {c : Char} (hc : ¬isIndent c) : c ∉ indent :=
  fun hmem ↦ hc (hindent c hmem)

theorem escapeBlock_indent (line : List Char) :
    escapeBlock (indent ++ line) = indent ++ escapeBlock line := by
  induction indent with
  | nil => rfl
  | cons c indent ih =>
    obtain ⟨hc, hindent⟩ := List.forall_mem_cons.mp hindent
    rw [List.cons_append, escapeBlock, ih hindent, List.cons_append]
    rintro _ rfl
    exact absurd hc (by decide)

theorem unescapeBlock_indent : unescapeBlock indent = indent := by
  induction indent with
  | nil => rfl
  | cons c indent ih =>
    obtain ⟨hc, hindent⟩ := List.forall_mem_cons.mp hindent
    rw [unescapeBlock, ih hindent]
    rintro _ rfl
    exact absurd hc (by decide)

theorem scanBlockString_indent :
    scanBlockString (indent ++ ['"', '"', '"']) =
      ⟨some .blockString, (indent ++ ['"', '"', '"']).length⟩ := by
  induction indent with
  | nil => rfl
  | cons c indent ih =>
    obtain ⟨hc, hindent⟩ := List.forall_mem_cons.mp hindent
    rw [List.cons_append, scanBlockString, ih hindent]
    · rfl
    · rintro _ rfl
      exact absurd hc (by decide)
    · rintro _ rfl
      exact absurd hc (by decide)

theorem byteLength_indent : byteLength indent = indent.length := by
  induction indent with
  | nil => rfl
  | cons c indent ih =>
    obtain ⟨hc, hindent⟩ := List.forall_mem_cons.mp hindent
    have hsize : c.utf8Size = 1 := by
      rcases (by simpa [isIndent] using hc : c = ' ' ∨ c = '\t') with rfl | rfl <;> rfl
    rw [byteLength_cons, ih hindent, hsize, List.length_cons, Nat.add_comm]

theorem allBlank_indent (line : List Char) : allBlank (indent ++ line) = allBlank line := by
  have hblank : indent.all isBlank = true := by
    refine List.all_eq_true.mpr fun c hc ↦ ?_
    rcases (by simpa [isIndent] using hindent c hc : c = ' ' ∨ c = '\t') with rfl | rfl <;> decide
  rw [allBlank, List.all_append, hblank, Bool.true_and, allBlank]

theorem indentation_append (line : List Char) :
    indentation (indent ++ line) = indent.length + indentation line := by
  rw [indentation, List.takeWhile_append_of_pos hindent, List.length_append, indentation]

theorem dropIndentation_append (line : List Char) :
    dropIndentation indent.length (indent ++ line) = line := by
  rw [dropIndentation, ← byteLength_indent hindent, dropBytes?_append, Option.getD_some]

section Lines

variable {lines : List (List Char)}
  (hflush : ∃ line ∈ lines, ¬allBlank line ∧ ∀ c ∈ line.head?, ¬isIndent c)

include hflush

theorem commonIndentation_indent :
    commonIndentation (lines.map (indent ++ ·)) = indent.length := by
  obtain ⟨line, hline, hblank, hhead⟩ := hflush
  have hzero : indentation line = 0 := by
    cases line with
    | nil => rfl
    | cons c cs => rw [indentation, List.takeWhile_cons_of_neg (hhead c rfl), List.length_nil]
  have hmin : (((lines.map (indent ++ ·)).filter fun line ↦ !allBlank line).map
      indentation).min? = some indent.length := by
    refine List.min?_eq_some_iff.mpr ⟨?_, fun n hn ↦ ?_⟩
    · refine List.mem_map.mpr ⟨indent ++ line, List.mem_filter.mpr ⟨?_, ?_⟩, ?_⟩
      · exact List.mem_map_of_mem hline
      · rw [allBlank_indent hindent]
        simpa using hblank
      · rw [indentation_append hindent, hzero, Nat.add_zero]
    · obtain ⟨other, hother, rfl⟩ := List.mem_map.mp hn
      obtain ⟨other, -, rfl⟩ := List.mem_map.mp (List.mem_filter.mp hother).1
      rw [indentation_append hindent]
      exact Nat.le_add_right _ _
  rw [commonIndentation, hmin, Option.getD_some]

theorem dedent_indent : dedent ([] :: lines.map (indent ++ ·)) = [] :: lines := by
  have hlines : lines.map (dropIndentation indent.length ∘ (indent ++ ·)) = lines :=
    List.map_id'' (fun line ↦ dropIndentation_append hindent line) lines
  rw [dedent, commonIndentation_indent hindent hflush, List.map_map, hlines]

end Lines

theorem blockString_eq (lines : List (List Char)) :
    blockString indent lines = ['"', '"', '"'] ++
      (endedLines (([] :: lines.map (indent ++ ·)).map escapeBlock) ++ indent) ++
        ['"', '"', '"'] := by
  have hlines : (lines.map (indent ++ ·)).map escapeBlock =
      lines.map fun line ↦ indent ++ escapeBlock line := by
    rw [List.map_map]
    exact List.map_congr_left fun line _ ↦ escapeBlock_indent hindent line
  rw [blockString, List.map_cons, hlines, endedLines_cons]
  simp [escapeBlock]

theorem tokenize_blockString (lines : List (List Char)) :
    tokenize (blockString indent lines) =
      [⟨.blockString, ⟨0, byteLength (blockString indent lines)⟩, blockString indent lines⟩,
        ⟨.endOfInput, .empty (byteLength (blockString indent lines)), []⟩] := by
  rw [blockString_eq hindent]
  generalize [] :: lines.map (indent ++ ·) = all
  have hinner := scanBlockString_endedLines all (indent ++ ['"', '"', '"'])
  rw [scanBlockString_indent hindent, ← List.append_assoc] at hinner
  have hopen (cs : List Char) : scan '"' ('"' :: '"' :: cs) =
      ⟨(scanBlockString cs).kind, (scanBlockString cs).more + 2⟩ := rfl
  have hscan : scan '"' ('"' :: '"' :: (endedLines (all.map escapeBlock) ++ indent ++
      ['"', '"', '"'])) = ⟨some .blockString, ('"' :: '"' :: (endedLines (all.map escapeBlock) ++
        indent ++ ['"', '"', '"'])).length⟩ := by
    rw [hopen, hinner]
    simp
    omega
  exact tokenize_of_scan hscan (by simp)

end Indentation

theorem trimBlankLines_eq {lines : List (List Char)} (hne : lines ≠ [])
    (hfirst : ∀ line ∈ lines.head?, ¬allBlank line)
    (hlast : ∀ line ∈ lines.getLast?, ¬allBlank line) :
    trimBlankLines ([] :: (lines ++ [[]])) = lines := by
  have hfront : ([] :: (lines ++ [[]])).dropWhile allBlank = lines ++ [[]] := by
    obtain ⟨line, lines, rfl⟩ := List.exists_cons_of_ne_nil hne
    rw [List.dropWhile_cons_of_pos rfl, List.cons_append,
      List.dropWhile_cons_of_neg (hfirst line rfl)]
  have hback : ([] :: lines.reverse).dropWhile allBlank = lines.reverse := by
    obtain ⟨line, others, hreverse⟩ := List.exists_cons_of_ne_nil (List.reverse_ne_nil_iff.mpr hne)
    have hline : ¬allBlank line :=
      hlast line (by rw [← List.head?_reverse, hreverse]; rfl)
    rw [List.dropWhile_cons_of_pos rfl, hreverse, List.dropWhile_cons_of_neg hline]
  rw [trimBlankLines, hfront, List.reverse_append, List.reverse_singleton, List.singleton_append,
    hback, List.reverse_reverse]

theorem blockStringValue_blockString {indent : List Char} {lines : List (List Char)}
    (hindent : ∀ c ∈ indent, isIndent c) (h : IsBlockText lines) :
    blockStringValue (blockString indent lines) = joinLines lines := by
  have hmem : ∀ line ∈ [] :: (lines ++ [[]]).map (indent ++ ·), '\n' ∉ line ∧ '\r' ∉ line := by
    have hnewline : '\n' ∉ indent := notMem_of_indent hindent (by decide)
    have hreturn : '\r' ∉ indent := notMem_of_indent hindent (by decide)
    have hends : ∀ line ∈ lines ++ [[]], '\n' ∉ line ∧ '\r' ∉ line :=
      List.forall_mem_append.mpr ⟨h.noLineEnd, List.forall_mem_singleton.mpr ⟨nofun, nofun⟩⟩
    refine List.forall_mem_cons.mpr ⟨⟨nofun, nofun⟩, List.forall_mem_map.mpr fun line hline ↦ ?_⟩
    simp [hnewline, hreturn, hends line hline]
  have hlines : [] :: lines.map (indent ++ ·) ++ [indent] =
      [] :: (lines ++ [[]]).map (indent ++ ·) := by simp
  have hinner : unescapeBlock (endedLines (([] :: lines.map (indent ++ ·)).map escapeBlock) ++
      indent) = joinLines ([] :: (lines ++ [[]]).map (indent ++ ·)) := by
    rw [unescapeBlock_endedLines, unescapeBlock_indent hindent, ← hlines, joinLines_append_cons,
      joinLines, List.intercalate_singleton]
  have hsplit := splitLines_joinLines (List.cons_ne_nil _ _) fun line hline ↦ (hmem line hline).1
  have hreturns : ([] :: (lines ++ [[]]).map (indent ++ ·)).map (dropEndWhile (· == '\r')) =
      [] :: (lines ++ [[]]).map (indent ++ ·) := by
    refine (List.map_congr_left fun line hline ↦ dropEndWhile_eq_self fun c hc ↦ ?_).trans
      (List.map_id _)
    intro heq
    exact (hmem line hline).2 (beq_iff_eq.mp heq ▸ List.mem_of_getLast? hc)
  have hflush : ∃ line ∈ lines ++ [[]], ¬allBlank line ∧ ∀ c ∈ line.head?, ¬isIndent c := by
    obtain ⟨line, hline, hrest⟩ := h.flush
    exact ⟨line, List.mem_append_left _ hline, hrest⟩
  rw [blockStringValue, blockString_eq hindent, stripMarks_append, hinner, hsplit, hreturns,
    dedent_indent hindent hflush, trimBlankLines_eq h.ne_nil h.first h.last]

/-- Lines that are written as a block string with any indentation are a single token that stands
for them. -/
theorem blockString_readsBack {indent : List Char} {lines : List (List Char)}
    (hindent : ∀ c ∈ indent, c = ' ' ∨ c = '\t') (h : IsBlockText lines) :
    tokenize (blockString indent lines) =
        [⟨.blockString, ⟨0, byteLength (blockString indent lines)⟩, blockString indent lines⟩,
          ⟨.endOfInput, .empty (byteLength (blockString indent lines)), []⟩] ∧
      blockStringValue (blockString indent lines) = joinLines lines := by
  have hblanks : ∀ c ∈ indent, isIndent c := by simpa [isIndent] using hindent
  exact ⟨tokenize_blockString hblanks lines, blockStringValue_blockString hblanks h⟩

/-- Quotes in the text, a line of less than the indentation, and one that is further in. -/
theorem blockString_readsBack_code :
    IsBlockText ["say \"\"\"".toList, [' '], "  more".toList] ∧
      blockStringValue (blockString [' ', '\t'] ["say \"\"\"".toList, [' '], "  more".toList]) =
        "say \"\"\"\n \n  more".toList := by
  have htext : IsBlockText ["say \"\"\"".toList, [' '], "  more".toList] :=
    { ne_nil := List.cons_ne_nil _ _
      noLineEnd := by decide
      first := by decide
      last := by decide
      flush := ⟨_, List.mem_cons_self, by decide, by simp [isIndent]⟩ }
  exact ⟨htext, (blockString_readsBack (by simp) htext).2⟩

end SchemaBindings.Sdl
