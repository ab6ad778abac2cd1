import SchemaBindings.Source.File

namespace SchemaBindings

open Text

def EndsLine (pre : List Char) : Prop :=
  ∀ c ∈ pre.getLast?, c = '\n'

/-- The lines of `pieces`, each with its line end. -/
def endedLines (pieces : List (List Char)) : List Char :=
  pieces.flatMap (· ++ ['\n'])

@[simp] theorem endedLines_nil : endedLines [] = [] := rfl

@[simp] theorem endedLines_cons (piece : List Char) (pieces : List (List Char)) :
    endedLines (piece :: pieces) = piece ++ '\n' :: endedLines pieces := by
  simp [endedLines]

theorem endsLine_concat (cs : List Char) : EndsLine (cs ++ ['\n']) := by
  simp [EndsLine]

theorem endsLine_endedLines (pieces : List (List Char)) : EndsLine (endedLines pieces) := by
  obtain rfl | ⟨pieces, piece, rfl⟩ := List.eq_nil_or_concat pieces
  · simp [EndsLine]
  · rw [endedLines, List.concat_eq_append, List.flatMap_append, List.flatMap_singleton,
      ← List.append_assoc]
    exact endsLine_concat _

theorem joinLines_append_cons (front : List (List Char)) (piece : List Char)
    (back : List (List Char)) :
    joinLines (front ++ piece :: back) = endedLines front ++ joinLines (piece :: back) := by
  induction front with
  | nil => rfl
  | cons first front ih =>
    rw [endedLines_cons, List.cons_append, List.append_assoc, List.cons_append, ← ih]
    cases front <;> simp [joinLines, List.intercalate]

theorem joinLines_cons_cons (piece second : List Char) (pieces : List (List Char)) :
    joinLines (piece :: second :: pieces) = piece ++ '\n' :: joinLines (second :: pieces) := by
  simp [joinLines, List.intercalate]

theorem utf8Size_newline : ('\n' : Char).utf8Size = 1 := rfl

namespace Line

theorem enumerate_eq_append_cons {number start : Nat} {pieces : List (List Char)}
    {before after : List Line} {line : Line}
    (h : enumerate number start pieces = before ++ line :: after) :
    ∃ front piece back, pieces = front ++ piece :: back ∧
      line = ⟨number + before.length, start + byteLength (endedLines front),
        dropEndWhile (· == '\r') piece⟩ ∧
      after = enumerate (line.number + 1) (line.start + byteLength piece + 1) back := by
  induction before generalizing number start pieces with
  | nil =>
    cases pieces with
    | nil => simp [enumerate] at h
    | cons piece back =>
      rw [enumerate, List.nil_append, List.cons.injEq] at h
      obtain ⟨rfl, rfl⟩ := h
      exact ⟨[], piece, back, rfl, rfl, rfl⟩
  | cons first before ih =>
    cases pieces with
    | nil => simp [enumerate] at h
    | cons piece pieces =>
      rw [enumerate, List.cons_append, List.cons.injEq] at h
      obtain ⟨front, piece', back, rfl, rfl, rfl⟩ := ih h.2
      refine ⟨piece :: front, piece', back, rfl, ?_, rfl⟩
      simp only [endedLines_cons, byteLength_append, byteLength_cons, utf8Size_newline,
        List.length_cons, mk.injEq, and_true]
      exact ⟨by omega, by omega⟩

theorem number_of_enumerate {number start : Nat} {pieces : List (List Char)}
    {before after : List Line} {line : Line}
    (h : enumerate number start pieces = before ++ line :: after) :
    line.number = number + before.length := by
  obtain ⟨front, piece, back, -, rfl, -⟩ := enumerate_eq_append_cons h
  rfl

end Line

namespace SourceFile

variable {source : SourceFile} {before after before' after' : List Line} {line line' : Line}

theorem lines_eq_append_cons (h : source.lines = before ++ line :: after) :
    ∃ pre piece rest, source.chars = pre ++ (piece ++ rest) ∧ EndsLine pre ∧ '\n' ∉ piece ∧
      line.start = byteLength pre ∧ line.text = dropEndWhile (· == '\r') piece ∧
      ∀ next ∈ after.head?, ∃ tail, rest = '\n' :: tail ∧
        next.start = byteLength (pre ++ (piece ++ ['\n'])) := by
  rw [source.lines_eq, Line.ofText] at h
  obtain ⟨front, piece, back, hpieces, rfl, rfl⟩ := Line.enumerate_eq_append_cons h
  have htext : source.chars = endedLines front ++ joinLines (piece :: back) := by
    rw [← joinLines_append_cons, ← hpieces, joinLines_splitLines, chars]
  have hpiece : '\n' ∉ piece := by
    intro hc
    have hmem : piece ∈ splitAt (· == '\n') source.text.toList := by
      rw [← splitLines, hpieces]
      simp
    exact not_mem_of_mem_splitAt hmem '\n' hc rfl
  refine ⟨endedLines front, piece, (joinLines (piece :: back)).drop piece.length, ?_,
    endsLine_endedLines front, hpiece, Nat.zero_add _, rfl, ?_⟩
  · rw [htext]
    cases back <;> simp [joinLines, List.intercalate]
  · intro next hnext
    cases back with
    | nil => simp [Line.enumerate] at hnext
    | cons second back =>
      refine ⟨joinLines (second :: back), by rw [joinLines_cons_cons, List.drop_left], ?_⟩
      obtain rfl : _ = next := by simpa [Line.enumerate] using hnext
      simp only [byteLength_append, byteLength_cons, byteLength_nil, utf8Size_newline]
      omega

theorem split_eq_of_number_eq (h : source.lines = before ++ line :: after)
    (h' : source.lines = before' ++ line' :: after') (hn : line.number = line'.number) :
    before = before' ∧ line = line' := by
  have hlen : before.length = before'.length := by
    rw [source.lines_eq, Line.ofText] at h h'
    have := Line.number_of_enumerate h
    have := Line.number_of_enumerate h'
    omega
  obtain ⟨hbefore, he⟩ := List.append_inj (h.symm.trans h') hlen
  exact ⟨hbefore, (List.cons.inj he).1⟩

theorem start_of_lines_eq_cons (h : source.lines = line :: after) : line.start = 0 := by
  rw [source.lines_eq, Line.ofText] at h
  obtain ⟨piece, pieces, hp⟩ :=
    List.exists_cons_of_ne_nil (splitAt_ne_nil (· == '\n') source.text.toList)
  rw [splitLines, hp, Line.enumerate, List.cons.injEq] at h
  rw [← h.1]

end SourceFile

end SchemaBindings
