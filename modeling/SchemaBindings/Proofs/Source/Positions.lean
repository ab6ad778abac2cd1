import Mathlib.Data.Prod.Lex
import SchemaBindings.Proofs.Source.Appending
import SchemaBindings.Proofs.Source.LineTable

namespace SchemaBindings.SourceFile

open Text

variable {f : SourceFile}

theorem getElem?_lines_lineOf (f : SourceFile) (offset : Nat) :
    f.lines[f.lineOf offset - 1]? = some (f.lineAt offset) ∧ (f.lineAt offset).start ≤ offset := by
  obtain ⟨before, hbefore⟩ := f.exists_takeWhile_eq offset
  have hlines := (List.takeWhile_append_dropWhile (p := (·.start ≤ offset)) (l := f.lines)).symm
  rw [hbefore, List.append_assoc, List.singleton_append] at hlines
  have hat : f.lines[before.length]? = some (f.lineAt offset) := by
    rw [hlines, List.getElem?_append_right (Nat.le_refl _), Nat.sub_self, List.getElem?_cons_zero]
  refine ⟨?_, ?_⟩
  · rwa [lineOf_eq_length, hbefore, List.length_append, List.length_singleton, Nat.add_sub_cancel]
  · have hmem : f.lineAt offset ∈ f.lines.takeWhile (·.start ≤ offset) := by
      rw [hbefore]
      exact List.mem_append_right _ (List.mem_singleton_self _)
    have hall := List.all_eq_true.mp List.all_takeWhile _ hmem
    exact of_decide_eq_true hall

theorem lineOf_mono (f : SourceFile) {o o' : Nat} (h : o ≤ o') : f.lineOf o ≤ f.lineOf o' := by
  rw [lineOf_eq_count, lineOf_eq_count]
  have htake : f.bytes.take o <+: f.bytes.take o' := List.take_prefix_take_left h
  exact Nat.succ_le_succ (htake.sublist.count_le _)

/-- A position comes before another if its line does, or on the same line its column. -/
theorem strictMono_lineColumn (f : SourceFile) :
    StrictMono fun offset ↦ toLex (f.lineColumn offset) := by
  intro o o' h
  rw [Prod.Lex.toLex_lt_toLex]
  obtain hlt | heq := Nat.lt_or_eq_of_le (f.lineOf_mono h.le)
  · exact .inl hlt
  · refine .inr ⟨heq, ?_⟩
    obtain ⟨hline, hstart⟩ := f.getElem?_lines_lineOf o
    obtain ⟨hline', -⟩ := f.getElem?_lines_lineOf o'
    rw [← heq, hline, Option.some_inj] at hline'
    simp only [lineColumn, ← hline']
    omega

theorem count_endedLines {pieces : List (List Char)} (h : ∀ piece ∈ pieces, '\n' ∉ piece) :
    (endedLines pieces).count '\n' = pieces.length := by
  induction pieces with
  | nil => rfl
  | cons piece pieces ih =>
    obtain ⟨hpiece, hpieces⟩ := List.forall_mem_cons.mp h
    rw [endedLines_cons, List.count_append, List.count_cons_self, ih hpieces,
      List.count_eq_zero.mpr hpiece, List.length_cons, Nat.zero_add]

/-- A piece of a file stands between two line feeds, or the beginning or the end of the file. -/
structure IsLine (f : SourceFile) (pre piece rest : List Char) : Prop where
  chars_eq : f.chars = pre ++ (piece ++ rest)
  starts : EndsLine pre
  not_mem : '\n' ∉ piece
  ends : ∀ c ∈ rest.head?, c = '\n'

theorem exists_isLine {before after : List Line} {line : Line}
    (h : f.lines = before ++ line :: after) :
    ∃ pre piece rest, f.IsLine pre piece rest ∧ pre.count '\n' = before.length ∧
      line = ⟨before.length + 1, byteLength pre, dropEndWhile (· == '\r') piece⟩ := by
  rw [f.lines_eq, Line.ofText] at h
  have hlength := congrArg List.length h
  obtain ⟨front, piece, back, hpieces, rfl, rfl⟩ := Line.enumerate_eq_append_cons h
  have hfront : front.length = before.length := by
    rw [Line.length_enumerate, hpieces, List.length_append, List.length_append, List.length_cons,
      List.length_cons, Line.length_enumerate] at hlength
    omega
  have hpiece : ∀ piece ∈ splitLines f.text.toList, '\n' ∉ piece :=
    fun piece hp hc ↦ not_mem_of_mem_splitAt hp '\n' hc rfl
  rw [hpieces] at hpiece
  have htext : f.chars = endedLines front ++ joinLines (piece :: back) := by
    rw [← joinLines_append_cons, ← hpieces, joinLines_splitLines, chars]
  have hcount : (endedLines front).count '\n' = before.length := by
    rw [count_endedLines fun p hp ↦ hpiece p (List.mem_append_left _ hp), hfront]
  have hline (rest : List Char) (hrest : joinLines (piece :: back) = piece ++ rest)
      (hends : ∀ c ∈ rest.head?, c = '\n') : f.IsLine (endedLines front) piece rest :=
    ⟨by rw [htext, hrest], endsLine_endedLines front, hpiece piece (by simp), hends⟩
  cases back with
  | nil =>
    refine ⟨endedLines front, piece, [], hline [] ?_ ?_, hcount, ?_⟩
    · simp [joinLines]
    · simp
    · simp [Nat.add_comm]
  | cons second back =>
    refine ⟨endedLines front, piece, '\n' :: joinLines (second :: back),
      hline _ (joinLines_cons_cons piece second back) ?_, hcount, ?_⟩
    · simp
    · simp [Nat.add_comm]

theorem number_of_lines {before after : List Line} {line : Line}
    (h : f.lines = before ++ line :: after) : line.number = before.length + 1 := by
  obtain ⟨_, _, _, -, -, rfl⟩ := exists_isLine h
  rfl

theorem lineText_number {before after : List Line} {line : Line}
    (h : f.lines = before ++ line :: after) : f.lineText line.number = line.text := by
  have hfind : f.lines.find? (·.number == line.number) = some line := by
    refine List.find?_eq_some_iff_append.mpr ⟨beq_self_eq_true _, before, after, h, ?_⟩
    intro other hother
    obtain ⟨front, back, rfl⟩ := List.append_of_mem hother
    rw [List.append_assoc, List.cons_append] at h
    have hnumber := number_of_lines h
    rw [← List.cons_append, ← List.append_assoc] at h
    have hnumber' := number_of_lines h
    simp only [List.length_append, List.length_cons] at hnumber'
    simp
    omega
  rw [lineText, hfind]

theorem exists_lines_eq_append_cons {number : Nat} (hpos : 1 ≤ number)
    (hle : number ≤ f.lines.length) :
    ∃ before line after, f.lines = before ++ line :: after ∧ line.number = number := by
  have hlt : number - 1 < f.lines.length := by omega
  have hlines : f.lines =
      f.lines.take (number - 1) ++ f.lines[number - 1] :: f.lines.drop (number - 1 + 1) := by
    rw [← List.drop_eq_getElem_cons hlt, List.take_append_drop]
  refine ⟨_, _, _, hlines, ?_⟩
  rw [number_of_lines hlines, List.length_take_of_le hlt.le]
  omega

theorem exists_isLine_lineText {number : Nat} (hpos : 1 ≤ number)
    (hle : number ≤ f.lines.length) :
    ∃ pre piece rest returns, f.IsLine pre piece rest ∧ pre.count '\n' + 1 = number ∧
      piece = f.lineText number ++ List.replicate returns '\r' ∧
      ∀ c ∈ (f.lineText number).getLast?, c ≠ '\r' := by
  obtain ⟨before, line, after, hlines, rfl⟩ := exists_lines_eq_append_cons hpos hle
  obtain ⟨pre, piece, rest, hline, hcount, rfl⟩ := exists_isLine hlines
  obtain ⟨tail, htail, hreturns⟩ := dropEndWhile_append (· == '\r') piece
  refine ⟨pre, piece, rest, tail.length, hline, by rw [hcount], ?_, ?_⟩
  · have hreplicate : tail = List.replicate tail.length '\r' :=
      List.eq_replicate_iff.mpr ⟨rfl, fun c hc ↦ beq_iff_eq.mp (hreturns c hc)⟩
    rw [lineText_number hlines, ← hreplicate, htail]
  · rw [lineText_number hlines]
    intro c hc
    simpa using not_of_getLast?_dropEndWhile c hc

theorem getElem?_lineStarts (f : SourceFile) (offset : Nat) :
    (lineStarts f.bytes)[f.lineOf offset - 1]? = some (f.lineAt offset).start := by
  rw [← map_start_lines, List.getElem?_map, (f.getElem?_lines_lineOf offset).1, Option.map_some]

end SchemaBindings.SourceFile
