import SchemaBindings.Proofs.Source.Overwriting
import Mathlib.Data.List.Chain

namespace SchemaBindings.Text

theorem dropFinalReturn_eq_self {cs : List Char} (h : cs.getLast? ≠ some '\r') :
    dropFinalReturn cs = cs :=
  if_neg h

theorem exists_eq_dropFinalReturn_append (cs : List Char) :
    ∃ ends, cs = dropFinalReturn cs ++ ends ∧ (ends = [] ∨ ends = ['\r']) := by
  by_cases h : cs.getLast? = some '\r'
  · refine ⟨['\r'], ?_, .inr rfl⟩
    rw [dropFinalReturn, if_pos h]
    exact (List.dropLast_append_getLast? '\r' h).symm
  · exact ⟨[], by rw [dropFinalReturn_eq_self h, List.append_nil], .inl rfl⟩

theorem exists_splitLines_eq (cs : List Char) : ∃ pieces last,
    splitLines cs = pieces ++ [last] ∧
      paragraphs cs = pieces.map dropFinalReturn ++ if last = [] then [] else [last] := by
  obtain ⟨pieces, last, hsplit⟩ :=
    (List.eq_nil_or_concat (splitLines cs)).resolve_left (splitAt_ne_nil _ cs)
  rw [List.concat_eq_append] at hsplit
  refine ⟨pieces, last, hsplit, ?_⟩
  rw [paragraphs, hsplit]
  cases last <;> simp

theorem notMem_of_mem_paragraphs {cs line : List Char} (h : line ∈ paragraphs cs) :
    '\n' ∉ line := by
  obtain ⟨pieces, last, hsplit, hlines⟩ := exists_splitLines_eq cs
  have hpieces : ∀ piece ∈ pieces ++ [last], '\n' ∉ piece := by
    intro piece hpiece hc
    rw [← hsplit] at hpiece
    exact not_mem_of_mem_splitAt hpiece '\n' hc rfl
  rw [hlines] at h
  rcases List.mem_append.mp h with h | h
  · obtain ⟨piece, hpiece, rfl⟩ := List.mem_map.mp h
    obtain ⟨ends, heq, -⟩ := exists_eq_dropFinalReturn_append piece
    intro hc
    exact hpieces piece (List.mem_append_left _ hpiece) (heq ▸ List.mem_append_left _ hc)
  · split at h
    · cases h
    · exact hpieces line (List.mem_append_right _ h)

/-- What is true of an empty line, and of a line whether or not a carriage return is counted as part
of it, is true of all lines if it is true of all pieces. -/
theorem forall_mem_paragraphs_iff {P : List Char → Prop} (hnil : P [])
    (hreturn : ∀ piece, P (dropFinalReturn piece) ↔ P piece) (cs : List Char) :
    (∀ line ∈ paragraphs cs, P line) ↔ ∀ piece ∈ splitLines cs, P piece := by
  obtain ⟨pieces, last, hsplit, hlines⟩ := exists_splitLines_eq cs
  have hlast : (∀ line ∈ if last = [] then [] else [last], P line) ↔ P last := by
    split
    next hempty => simp [hempty, hnil]
    next => simp
  rw [hsplit, hlines, List.forall_mem_append, List.forall_mem_append, List.forall_mem_map,
    List.forall_mem_singleton, hlast]
  exact and_congr_left' (forall₂_congr fun piece _ ↦ hreturn piece)

theorem paragraphs_endedLines {lines : List (List Char)} (hline : ∀ line ∈ lines, '\n' ∉ line)
    (hreturn : ∀ line ∈ lines, line.getLast? ≠ some '\r') :
    paragraphs (endedLines lines) = lines := by
  have hjoin : joinLines (lines ++ [[]]) = endedLines lines := by
    rw [joinLines_append_cons, joinLines, List.intercalate_singleton, List.append_nil]
  have hsplit : splitLines (endedLines lines) = lines ++ [[]] := by
    rw [← hjoin]
    refine splitLines_joinLines (by simp) fun line h ↦ ?_
    rcases List.mem_append.mp h with h | h
    · exact hline line h
    · simp [List.mem_singleton.mp h]
  have hmap : lines.map dropFinalReturn = lines :=
    (List.map_congr_left fun line h ↦ dropFinalReturn_eq_self (hreturn line h)).trans
      (List.map_id lines)
  simp [paragraphs, hsplit, hmap]

/-- Nowhere in the text is the one character followed by the other. -/
def AreApart (a b : Char) (cs : List Char) : Prop :=
  cs.IsChain fun c d ↦ ¬(c = a ∧ d = b)

instance (a b : Char) (cs : List Char) : Decidable (AreApart a b cs) :=
  inferInstanceAs (Decidable (List.IsChain _ cs))

variable {a b : Char} {cs ds : List Char}

theorem areApart_append_iff : AreApart a b (cs ++ ds) ↔ AreApart a b cs ∧ AreApart a b ds ∧
    ¬(cs.getLast? = some a ∧ ds.head? = some b) := by
  refine List.isChain_append.trans (and_congr_right' (and_congr_right' ⟨fun h hboth ↦ ?_, ?_⟩))
  · exact h a hboth.1 b hboth.2 ⟨rfl, rfl⟩
  · rintro h c hc d hd ⟨rfl, rfl⟩
    exact h ⟨hc, hd⟩

theorem areApart_cons_iff {c : Char} :
    AreApart a b (c :: cs) ↔ ¬(c = a ∧ cs.head? = some b) ∧ AreApart a b cs := by
  cases cs with
  | nil => simp [AreApart]
  | cons d cs => simp [AreApart]

theorem areApart_iff_not_infix : AreApart a b cs ↔ ¬[a, b] <:+: cs := by
  induction cs with
  | nil => simp [AreApart]
  | cons c cs ih =>
    rw [areApart_cons_iff, List.infix_cons_iff, not_or, ih]
    refine and_congr_left' (not_congr ?_)
    cases cs <;> simp [eq_comm]

theorem areApart_flatMap_iff {α : Type} {f : α → List Char} (ha : a ≠ '\n')
    (hf : ∀ x, (f x).getLast? = some '\n') (xs : List α) :
    AreApart a b (xs.flatMap f) ↔ ∀ x ∈ xs, AreApart a b (f x) := by
  induction xs with
  | nil => simp [AreApart]
  | cons x xs ih =>
    rw [List.flatMap_cons, areApart_append_iff, ih, List.forall_mem_cons, hf]
    simp [Ne.symm ha]

theorem areApart_concat_iff {c : Char} (h : b ≠ c) :
    AreApart a b (cs ++ [c]) ↔ AreApart a b cs := by
  rw [areApart_append_iff]
  simp [AreApart, Ne.symm h]

theorem areApart_dropFinalReturn_iff (hb : b ≠ '\r') :
    AreApart a b (dropFinalReturn cs) ↔ AreApart a b cs := by
  obtain ⟨ends, heq, rfl | rfl⟩ := exists_eq_dropFinalReturn_append cs
  · rw [List.append_nil] at heq
    rw [← heq]
  · conv_rhs => rw [heq]
    exact (areApart_concat_iff hb).symm

theorem areApart_paragraphs_iff (ha : a ≠ '\n') (hb : b ≠ '\n' ∧ b ≠ '\r') (cs : List Char) :
    AreApart a b cs ↔ ∀ line ∈ paragraphs cs, AreApart a b line := by
  have hpieces : AreApart a b cs ↔ ∀ piece ∈ splitLines cs, AreApart a b piece := by
    rw [← areApart_concat_iff hb.1, ← endedLines_splitLines, endedLines,
      areApart_flatMap_iff ha fun piece ↦ by simp]
    exact forall₂_congr fun piece _ ↦ areApart_concat_iff hb.1
  rw [hpieces, forall_mem_paragraphs_iff (by simp [AreApart])
    fun _ ↦ areApart_dropFinalReturn_iff hb.2]

end SchemaBindings.Text
