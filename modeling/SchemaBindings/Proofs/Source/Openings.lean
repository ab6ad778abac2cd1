import SchemaBindings.Proofs.Source.Lines
import SchemaBindings.Proofs.Text.Utf8

namespace SchemaBindings

open Text

theorem Text.eq_of_byteLength_eq {a a' b b' : List Char} (h : a ++ b = a' ++ b')
    (hlen : byteLength a = byteLength a') : a = a' := by
  have hrest := dropBytes?_append a b
  rw [h, hlen, dropBytes?_append, Option.some.injEq] at hrest
  rw [hrest] at h
  exact List.append_cancel_right h

namespace SourceFile

variable {source : SourceFile} {offset offset' : Nat}

theorem exists_lines_eq_lineAt (source : SourceFile) (offset : Nat) :
    ∃ before after, source.lines = before ++ source.lineAt offset :: after ∧
      (source.lineAt offset).start ≤ offset := by
  obtain ⟨first, others, hlines⟩ : ∃ first others, source.lines = first :: others := by
    refine List.exists_cons_of_ne_nil ?_
    obtain ⟨piece, pieces, hp⟩ :=
      List.exists_cons_of_ne_nil (splitAt_ne_nil (· == '\n') source.text.toList)
    rw [source.lines_eq, Line.ofText, splitLines, hp]
    exact List.cons_ne_nil _ _
  have hne : source.lines.takeWhile (·.start ≤ offset) ≠ [] := by
    rw [hlines, List.takeWhile_cons_of_pos (by simp [start_of_lines_eq_cons hlines])]
    exact List.cons_ne_nil _ _
  have hlast : source.lineAt offset = (source.lines.takeWhile (·.start ≤ offset)).getLast hne := by
    rw [lineAt, List.getLast?_eq_some_getLast hne]
    rfl
  rw [hlast]
  refine ⟨(source.lines.takeWhile (·.start ≤ offset)).dropLast,
    source.lines.dropWhile (·.start ≤ offset), ?_, ?_⟩
  · rw [List.append_cons, List.dropLast_concat_getLast hne, List.takeWhile_append_dropWhile]
  · have hall := List.all_eq_true.mp List.all_takeWhile _ (List.getLast_mem hne)
    exact of_decide_eq_true hall

theorem exists_lead_of_opensLine (h : source.opensLine offset = true) :
    ∃ pre lead rest, source.chars = pre ++ lead ++ rest ∧
      (source.lineAt offset).start = byteLength pre ∧ offset = byteLength (pre ++ lead) ∧
      ∀ c ∈ lead, isBlank c := by
  obtain ⟨before, after, hlines, hle⟩ := source.exists_lines_eq_lineAt offset
  obtain ⟨pre, piece, rest, htext, -, -, hstart, hline, -⟩ := source.lines_eq_append_cons hlines
  obtain ⟨tail, htail, -⟩ := dropEndWhile_append (· == '\r') piece
  rw [opensLine] at h
  split at h
  next lead hlead =>
    obtain ⟨more, hmore, hlen⟩ := takeBytes?_eq_some_iff.mp hlead
    refine ⟨pre, lead, more ++ tail ++ rest, ?_, hstart, ?_, List.all_eq_true.mp h⟩
    · rw [htext, ← htail, ← hline, hmore]
      simp
    · rw [byteLength_append]
      omega
  next => cases h

theorem le_of_opensLine (h : source.opensLine offset = true) (h' : source.opensLine offset' = true)
    (hline : source.lineOf offset = source.lineOf offset') {pre rest : List Char} {c : Char}
    (htext : source.chars = pre ++ c :: rest) (hpre : offset = byteLength pre)
    (hc : ¬ isBlank c) : offset' ≤ offset := by
  obtain ⟨before, after, hlines, -⟩ := source.exists_lines_eq_lineAt offset
  obtain ⟨before', after', hlines', -⟩ := source.exists_lines_eq_lineAt offset'
  have hsame := (split_eq_of_number_eq hlines hlines' hline).2
  obtain ⟨start, lead, more, hchars, hstart, hoffset, -⟩ := exists_lead_of_opensLine h
  obtain ⟨start', lead', more', hchars', hstart', hoffset', hblank⟩ := exists_lead_of_opensLine h'
  have hpre' : pre = start ++ lead :=
    eq_of_byteLength_eq (htext.symm.trans hchars) (hpre.symm.trans hoffset)
  rw [List.append_assoc] at hchars hchars'
  obtain rfl : start = start' :=
    eq_of_byteLength_eq (hchars.symm.trans hchars') (by rw [← hstart, ← hstart', hsame])
  rw [htext, hpre', List.append_assoc, List.append_cancel_left_eq, List.append_eq_append_iff]
    at hchars'
  rw [hoffset, hoffset', byteLength_append, byteLength_append]
  rcases hchars' with ⟨between, rfl, hmore⟩ | ⟨between, rfl, -⟩
  · cases between with
    | nil => simp
    | cons d between =>
      obtain ⟨rfl, -⟩ := List.cons.inj hmore
      exact absurd (hblank c (by simp)) hc
  · rw [byteLength_append]
    omega

/-- At most one character that is no blank opens a line. -/
theorem eq_of_opensLine (h : source.opensLine offset = true) (h' : source.opensLine offset' = true)
    (hline : source.lineOf offset = source.lineOf offset')
    (hc : ∃ pre c rest, source.chars = pre ++ c :: rest ∧ offset = byteLength pre ∧ ¬ isBlank c)
    (hc' : ∃ pre c rest, source.chars = pre ++ c :: rest ∧ offset' = byteLength pre ∧
      ¬ isBlank c) : offset = offset' := by
  obtain ⟨pre, c, rest, htext, hpre, hc⟩ := hc
  obtain ⟨pre', c', rest', htext', hpre', hc'⟩ := hc'
  exact Nat.le_antisymm (le_of_opensLine h' h hline.symm htext' hpre' hc')
    (le_of_opensLine h h' hline htext hpre hc)

end SourceFile

end SchemaBindings
