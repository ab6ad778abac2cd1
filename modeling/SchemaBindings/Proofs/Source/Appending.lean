import SchemaBindings.Proofs.Source.Openings

namespace SchemaBindings

open Text

theorem Text.splitLines_append (cs rest : List Char) :
    splitLines (cs ++ '\n' :: rest) = splitLines cs ++ splitLines rest := by
  unfold splitLines
  induction cs with
  | nil => rfl
  | cons c cs ih =>
    by_cases hc : c == '\n'
    · rw [List.cons_append, splitAt, if_pos hc, splitAt, if_pos hc, ih, List.cons_append]
    · obtain ⟨piece, pieces, hs, hcons⟩ := splitAt_cons_of_neg (p := (· == '\n')) hc cs
      obtain ⟨piece', pieces', hs', hcons'⟩ :=
        splitAt_cons_of_neg (p := (· == '\n')) hc (cs ++ '\n' :: rest)
      rw [ih, hs, List.cons_append, List.cons.injEq] at hs'
      obtain ⟨rfl, rfl⟩ := hs'
      rw [List.cons_append, hcons', hcons, List.cons_append]

theorem endedLines_splitLines (cs : List Char) : endedLines (splitLines cs) = cs ++ ['\n'] := by
  have hjoin := joinLines_append_cons (splitLines cs) [] []
  have hlines : joinLines (splitLines cs ++ splitLines []) = cs ++ ['\n'] := by
    rw [← splitLines_append, joinLines_splitLines]
  rw [← hlines]
  exact (List.append_nil _).symm.trans hjoin.symm

theorem Line.enumerate_append (number start : Nat) (front back : List (List Char)) :
    enumerate number start (front ++ back) = enumerate number start front ++
      enumerate (number + front.length) (start + byteLength (endedLines front)) back := by
  induction front generalizing number start with
  | nil => rfl
  | cons piece front ih =>
    rw [List.cons_append, enumerate, ih, enumerate, List.cons_append]
    simp only [endedLines_cons, byteLength_append, byteLength_cons, utf8Size_newline,
      List.length_cons]
    congr 3 <;> omega

theorem Line.length_enumerate (number start : Nat) (pieces : List (List Char)) :
    (enumerate number start pieces).length = pieces.length := by
  induction pieces generalizing number start with
  | nil => rfl
  | cons piece pieces ih => rw [enumerate, List.length_cons, List.length_cons, ih]

theorem Line.le_of_mem_enumerate {number start : Nat} {pieces : List (List Char)} {line : Line}
    (h : line ∈ enumerate number start pieces) : number ≤ line.number ∧ start ≤ line.start := by
  induction pieces generalizing number start with
  | nil => cases h
  | cons piece pieces ih =>
    rcases List.mem_cons.mp h with rfl | h
    · exact ⟨Nat.le_refl _, Nat.le_refl _⟩
    · obtain ⟨hnumber, hstart⟩ := ih h
      exact ⟨by omega, by omega⟩

namespace SourceFile

def append (source : SourceFile) (text : String) : SourceFile :=
  .ofText source.name (.ofList (source.chars ++ '\n' :: text.toList))

variable (source : SourceFile) (text : String)

@[simp] theorem name_append : (source.append text).name = source.name := rfl

@[simp] theorem chars_append :
    (source.append text).chars = source.chars ++ '\n' :: text.toList :=
  String.toList_ofList

def appendedLines : List Line :=
  Line.enumerate (1 + source.lines.length) (byteLength source.chars + 1) (splitLines text.toList)

theorem lines_append : (source.append text).lines = source.lines ++ source.appendedLines text := by
  have hlines : source.lines = Line.enumerate 1 0 (splitLines source.chars) := source.lines_eq
  have hchars := source.chars_append text
  rw [(source.append text).lines_eq, Line.ofText, ← chars, hchars, splitLines_append,
    Line.enumerate_append, endedLines_splitLines, appendedLines, hlines, Line.length_enumerate]
  simp [utf8Size_newline]

theorem lineOf_le (offset : Nat) : source.lineOf offset ≤ source.lines.length := by
  obtain ⟨before, after, hlines, -⟩ := source.exists_lines_eq_lineAt offset
  have hlength : source.lines.length = before.length + (after.length + 1) := by
    rw [hlines, List.length_append, List.length_cons]
  rw [source.lines_eq, Line.ofText] at hlines
  have hnumber := Line.number_of_enumerate hlines
  rw [lineOf]
  omega

theorem le_of_opensLine_eq_true {offset : Nat} (h : source.opensLine offset = true) :
    offset ≤ byteLength source.chars := by
  obtain ⟨pre, lead, rest, htext, -, rfl, -⟩ := exists_lead_of_opensLine h
  rw [htext, byteLength_append _ rest]
  exact Nat.le_add_right _ _

/-- An offset lies on the line on which it was before, or on a line of the appended text. -/
theorem lineAt_append (offset : Nat) :
    (source.append text).lineAt offset = source.lineAt offset ∨
      byteLength source.chars < offset ∧
        source.lines.length < (source.append text).lineOf offset := by
  have hlineAt : (source.append text).lineAt offset =
      (((source.lines ++ source.appendedLines text).takeWhile (·.start ≤ offset)).getLast?).getD
        ⟨1, 0, []⟩ := by
    rw [lineAt, lines_append]
  rw [lineOf, hlineAt, List.takeWhile_append]
  split
  next hall =>
    have hlines := (List.takeWhile_prefix _).eq_of_length hall
    rw [List.getLast?_append]
    cases hlast : ((source.appendedLines text).takeWhile (·.start ≤ offset)).getLast? with
    | none =>
      left
      rw [Option.none_or, lineAt, hlines]
    | some line =>
      right
      have hmem := List.mem_of_getLast? hlast
      have hstart := of_decide_eq_true (List.all_eq_true.mp List.all_takeWhile line hmem)
      obtain ⟨hnumber, hle⟩ :=
        Line.le_of_mem_enumerate ((List.takeWhile_prefix _).subset hmem)
      rw [Option.some_or, Option.getD_some]
      exact ⟨by omega, by omega⟩
  next => exact Or.inl rfl

theorem opensLine_append_of_opensLine {offset : Nat} (h : source.opensLine offset = true) :
    (source.append text).opensLine offset = true ∧
      (source.append text).lineOf offset = source.lineOf offset := by
  obtain hline | ⟨hlt, -⟩ := source.lineAt_append text offset
  · exact ⟨by rw [opensLine, hline]; exact h, by rw [lineOf, hline, lineOf]⟩
  · have := source.le_of_opensLine_eq_true h
    omega

end SourceFile

end SchemaBindings
