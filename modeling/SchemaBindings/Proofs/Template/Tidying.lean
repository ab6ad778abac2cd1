import SchemaBindings.Proofs.Text.Paragraphs
import SchemaBindings.Template.Tidy
import Mathlib.Data.List.TakeWhile

namespace SchemaBindings.Template

open Text

section Trimming

variable {source : List (List Char)} {line : List Char}

theorem trimEnd_eq_nil_iff : trimEnd line = [] ↔ allBlank line := by
  rw [trimEnd, dropEndWhile, List.reverse_eq_nil_iff, List.dropWhile_eq_nil_iff, allBlank,
    List.all_eq_true]
  simp only [List.mem_reverse]

theorem trimEnd_trimEnd (line : List Char) : trimEnd (trimEnd line) = trimEnd line :=
  dropEndWhile_eq_self not_of_getLast?_dropEndWhile

theorem allBlank_trimEnd (line : List Char) : allBlank (trimEnd line) = allBlank line := by
  rw [Bool.eq_iff_iff, ← trimEnd_eq_nil_iff, trimEnd_trimEnd, trimEnd_eq_nil_iff]

theorem trimEnd_subset (line : List Char) : trimEnd line ⊆ line := by
  obtain ⟨tail, htail, -⟩ := dropEndWhile_append isBlank line
  conv_rhs => rw [← htail]
  exact List.subset_append_left _ _

theorem eq_nil_of_mem_map_trimEnd (h : line ∈ source.map trimEnd) (hblank : allBlank line) :
    line = [] := by
  obtain ⟨line, -, rfl⟩ := List.mem_map.mp h
  rwa [trimEnd_eq_nil_iff, ← allBlank_trimEnd]

theorem filter_map_trimEnd (source : List (List Char)) :
    (source.map trimEnd).filter (!allBlank ·) = (source.filter (!allBlank ·)).map trimEnd := by
  rw [List.filter_map]
  congr 2
  funext line
  rw [Function.comp_apply, allBlank_trimEnd]

end Trimming

/-- What a line may stand in front of: a blank line follows neither a blank line nor one that opens
a block, and precedes none that closes a block. -/
structure MayPrecede (a b : List Char) : Prop where
  blank : ¬(allBlank a ∧ allBlank b)
  opening : allBlank b → ∀ c ∈ a.getLast?, c ∉ ['\x7b', '(', '[', ':']
  closing : allBlank a → ∀ c ∈ (trimStart b).head?, c ∉ ['\x7d', ')', ']']

section Neighbours

variable {a b line : List Char}

theorem opensBlock_iff : opensBlock line ↔ ∃ c ∈ line.getLast?, c ∈ ['\x7b', '(', '[', ':'] := by
  unfold opensBlock
  cases line.getLast? <;> simp [or_assoc]

theorem closesBlock_iff : closesBlock line ↔ ∃ c ∈ (trimStart line).head?,
    c ∈ ['\x7d', ')', ']'] := by
  unfold closesBlock
  cases trimStart line <;> simp [or_assoc]

theorem mayPrecede_iff : MayPrecede a b ↔ ¬(allBlank a ∧ allBlank b) ∧
    (allBlank b → ¬ opensBlock a) ∧ (allBlank a → ¬ closesBlock b) := by
  rw [opensBlock_iff, closesBlock_iff]
  constructor
  · intro h
    exact ⟨h.blank, fun hb ⟨c, hc, hmem⟩ ↦ h.opening hb c hc hmem,
      fun ha ⟨c, hc, hmem⟩ ↦ h.closing ha c hc hmem⟩
  · rintro ⟨hblank, hopen, hclose⟩
    exact ⟨hblank, fun hb c hc hmem ↦ hopen hb ⟨c, hc, hmem⟩,
      fun ha c hc hmem ↦ hclose ha ⟨c, hc, hmem⟩⟩

instance (a b : List Char) : Decidable (MayPrecede a b) :=
  decidable_of_iff _ mayPrecede_iff.symm

theorem mayPrecede_iff_of_blank (hb : allBlank b) :
    MayPrecede a b ↔ ¬ allBlank a ∧ ¬ opensBlock a := by
  rw [mayPrecede_iff]
  constructor
  · rintro ⟨hblank, hopen, -⟩
    exact ⟨fun ha ↦ hblank ⟨ha, hb⟩, hopen hb⟩
  · rintro ⟨ha, hopen⟩
    exact ⟨fun h ↦ ha h.1, fun _ ↦ hopen, fun h ↦ absurd h ha⟩

theorem mayPrecede_iff_of_not_blank (hb : ¬ allBlank b) :
    MayPrecede a b ↔ (allBlank a → ¬ closesBlock b) := by
  rw [mayPrecede_iff]
  constructor
  · rintro ⟨-, -, hclose⟩
    exact hclose
  · intro hclose
    exact ⟨fun h ↦ hb h.2, fun h ↦ absurd h hb, hclose⟩

end Neighbours

/-- The lines are some of those that were seen, with each that is not blank, and they obey the
rules for blank lines as far as they go. In both lists the latest line comes first. -/
structure IsArranged (seen lines : List (List Char)) : Prop where
  sublist : lines.Sublist seen
  filled : lines.filter (!allBlank ·) = seen.filter (!allBlank ·)
  chain : lines.IsChain fun b a ↦ MayPrecede a b
  first : ∀ line ∈ lines.getLast?, ¬ allBlank line

section Arranged

variable {seen lines rest kept : List (List Char)} {line : List Char}

theorem isArranged_cons_iff_of_blank (hline : allBlank line) :
    IsArranged (line :: seen) lines ↔ IsArranged seen lines ∨
      ∃ rest, lines = line :: rest ∧ IsArranged seen rest ∧
        ∃ latest ∈ rest.head?, ¬ allBlank latest ∧ ¬ opensBlock latest := by
  have hfilter (rest : List (List Char)) :
      (line :: rest).filter (!allBlank ·) = rest.filter (!allBlank ·) :=
    List.filter_cons_of_neg (by simpa using hline)
  constructor
  · rintro ⟨hsub, hfilled, hchain, hfirst⟩
    rw [hfilter] at hfilled
    rcases List.sublist_cons_iff.mp hsub with hsub | ⟨rest, rfl, hrest⟩
    · exact .inl ⟨hsub, hfilled, hchain, hfirst⟩
    · rw [hfilter] at hfilled
      cases rest with
      | nil => exact absurd hline (hfirst line rfl)
      | cons latest rest =>
        obtain ⟨hlatest, hchain⟩ := List.isChain_cons_cons.mp hchain
        rw [List.getLast?_cons_cons] at hfirst
        exact .inr ⟨_, rfl, ⟨hrest, hfilled, hchain, hfirst⟩, latest, rfl,
          (mayPrecede_iff_of_blank hline).mp hlatest⟩
  · rintro (h | ⟨rest, rfl, h, latest, hlatest, hrules⟩)
    · exact ⟨h.sublist.cons _, by rw [hfilter, h.filled], h.chain, h.first⟩
    · obtain ⟨earlier, rfl⟩ := List.head?_eq_some_iff.mp hlatest
      exact ⟨h.sublist.cons_cons _, by rw [hfilter, hfilter, h.filled],
        List.isChain_cons_cons.mpr ⟨(mayPrecede_iff_of_blank hline).mpr hrules, h.chain⟩,
        by rw [List.getLast?_cons_cons]; exact h.first⟩

theorem isArranged_cons_iff_of_not_blank (hline : ¬ allBlank line) :
    IsArranged (line :: seen) lines ↔ ∃ rest, lines = line :: rest ∧ IsArranged seen rest ∧
      ∀ latest ∈ rest.head?, allBlank latest → ¬ closesBlock line := by
  have hfilter (rest : List (List Char)) :
      (line :: rest).filter (!allBlank ·) = line :: rest.filter (!allBlank ·) :=
    List.filter_cons_of_pos (by simpa using hline)
  constructor
  · rintro ⟨hsub, hfilled, hchain, hfirst⟩
    rw [hfilter] at hfilled
    rcases List.sublist_cons_iff.mp hsub with hsub | ⟨rest, rfl, hrest⟩
    · have hle := (hsub.filter (!allBlank ·)).length_le
      rw [hfilled, List.length_cons] at hle
      omega
    · rw [hfilter, List.cons.injEq] at hfilled
      obtain ⟨hlatest, hchain⟩ := List.isChain_cons.mp hchain
      refine ⟨rest, rfl, ⟨hrest, hfilled.2, hchain, ?_⟩, fun latest h ↦
        (mayPrecede_iff_of_not_blank hline).mp (hlatest latest h)⟩
      cases rest with
      | nil => simp
      | cons => rwa [List.getLast?_cons_cons] at hfirst
  · rintro ⟨rest, rfl, h, hrules⟩
    refine ⟨h.sublist.cons_cons _, by rw [hfilter, hfilter, h.filled],
      List.isChain_cons.mpr ⟨fun latest hlatest ↦
        (mayPrecede_iff_of_not_blank hline).mpr (hrules latest hlatest), h.chain⟩, ?_⟩
    cases rest with
    | nil => simpa using hline
    | cons => rw [List.getLast?_cons_cons]; exact h.first

theorem IsArranged.of_cons (h : IsArranged seen (line :: rest)) (hline : allBlank line) :
    IsArranged seen rest := by
  refine ⟨(List.sublist_cons_self _ _).trans h.sublist, ?_, h.chain.tail, ?_⟩
  · rw [← h.filled, List.filter_cons_of_neg (by simpa using hline)]
  · cases rest with
    | nil => simp
    | cons => exact fun latest hlatest ↦ h.first latest (by rwa [List.getLast?_cons_cons])

theorem IsArranged.dropWhile (h : IsArranged seen lines) :
    IsArranged seen (lines.dropWhile (· == [])) := by
  induction lines with
  | nil => exact h
  | cons line lines ih =>
    rw [List.dropWhile_cons]
    split
    next hline =>
      obtain rfl := beq_iff_eq.mp hline
      exact ih (h.of_cons rfl)
    next => exact h

end Arranged

/-- Of the lists of lines that are arranged, this one holds all others. -/
structure IsLargest (seen kept : List (List Char)) : Prop where
  arranged : IsArranged seen kept
  largest : ∀ lines, IsArranged seen lines → lines.Sublist kept

section Largest

variable {seen kept rest : List (List Char)} {line a b : List Char}

theorem sublist_of_sublist_cons (h : rest.Sublist (a :: kept))
    (hhead : ∀ latest ∈ rest.head?, latest ≠ a) : rest.Sublist kept := by
  rcases List.sublist_cons_iff.mp h with h | ⟨_, rfl, -⟩
  · exact h
  · exact absurd rfl (hhead a rfl)

theorem IsArranged.eq_of_cons (h : IsArranged seen (a :: rest)) (h' : IsArranged seen (b :: kept))
    (ha : ¬ allBlank a) (hb : ¬ allBlank b) : a = b := by
  have heq := h.filled.trans h'.filled.symm
  rw [List.filter_cons_of_pos (by simpa using ha), List.filter_cons_of_pos (by simpa using hb)]
    at heq
  exact (List.cons.inj heq).1

theorem IsLargest.cons_blank (h : IsLargest seen kept)
    (hlatest : ∃ latest ∈ kept.head?, ¬ allBlank latest ∧ ¬ opensBlock latest) :
    IsLargest ([] :: seen) ([] :: kept) := by
  refine ⟨(isArranged_cons_iff_of_blank rfl).mpr (.inr ⟨kept, rfl, h.arranged, hlatest⟩),
    fun lines hlines ↦ ?_⟩
  rcases (isArranged_cons_iff_of_blank rfl).mp hlines with hlines | ⟨rest, rfl, hrest, -⟩
  · exact (h.largest lines hlines).cons _
  · exact (h.largest rest hrest).cons_cons _

theorem IsLargest.skip_blank (h : IsLargest seen kept)
    (hempty : ∀ latest ∈ kept, allBlank latest → latest = [])
    (hlatest : ∀ latest ∈ kept.head?, allBlank latest ∨ opensBlock latest) :
    IsLargest ([] :: seen) kept := by
  refine ⟨(isArranged_cons_iff_of_blank rfl).mpr (.inl h.arranged), fun lines hlines ↦ ?_⟩
  rcases (isArranged_cons_iff_of_blank rfl).mp hlines with hlines |
    ⟨rest, rfl, hrest, last, hlast, hblank, hopen⟩
  · exact h.largest lines hlines
  · have hsub := h.largest rest hrest
    obtain ⟨rest, rfl⟩ := List.head?_eq_some_iff.mp hlast
    cases kept with
    | nil => cases hsub
    | cons latest kept =>
      by_cases hb : allBlank latest
      · obtain rfl := hempty latest List.mem_cons_self hb
        refine (sublist_of_sublist_cons hsub ?_).cons_cons _
        rintro _ ⟨⟩ rfl
        exact hblank rfl
      · obtain rfl := hrest.eq_of_cons h.arranged hblank hb
        exact absurd ((hlatest last rfl).resolve_left hblank) hopen

theorem IsLargest.cons_line (h : IsLargest seen kept) (hline : ¬ allBlank line)
    (hlatest : ∀ latest ∈ kept.head?, allBlank latest → ¬ closesBlock line) :
    IsLargest (line :: seen) (line :: kept) := by
  refine ⟨(isArranged_cons_iff_of_not_blank hline).mpr ⟨kept, rfl, h.arranged, hlatest⟩,
    fun lines hlines ↦ ?_⟩
  obtain ⟨rest, rfl, hrest, -⟩ := (isArranged_cons_iff_of_not_blank hline).mp hlines
  exact (h.largest rest hrest).cons_cons _

theorem IsLargest.replace_blank (h : IsLargest seen ([] :: kept)) (hline : ¬ allBlank line)
    (hclose : closesBlock line) : IsLargest (line :: seen) (line :: kept) := by
  refine ⟨(isArranged_cons_iff_of_not_blank hline).mpr ⟨kept, rfl, h.arranged.of_cons rfl, ?_⟩,
    fun lines hlines ↦ ?_⟩
  · intro latest hlatest hblank
    obtain ⟨_, rfl⟩ := List.head?_eq_some_iff.mp hlatest
    exact absurd ⟨hblank, rfl⟩ (List.isChain_cons_cons.mp h.arranged.chain).1.blank
  · obtain ⟨rest, rfl, hrest, hhead⟩ := (isArranged_cons_iff_of_not_blank hline).mp hlines
    refine (sublist_of_sublist_cons (h.largest rest hrest) ?_).cons_cons _
    rintro latest hlatest rfl
    exact hhead [] hlatest rfl hclose

theorem sublist_dropWhile (h : rest.Sublist kept) (hhead : ∀ latest ∈ rest.head?, latest ≠ []) :
    rest.Sublist (kept.dropWhile (· == [])) := by
  induction kept with
  | nil => exact h
  | cons latest kept ih =>
    rw [List.dropWhile_cons]
    split
    next hlatest =>
      obtain rfl := beq_iff_eq.mp hlatest
      exact ih (sublist_of_sublist_cons h hhead)
    next => exact h

theorem IsLargest.keepLine (h : IsLargest seen kept)
    (hempty : ∀ latest ∈ kept, allBlank latest → latest = []) :
    IsLargest (trimEnd line :: seen) (keepLine kept line) := by
  unfold Template.keepLine
  dsimp only
  by_cases hline : trimEnd line = []
  · rw [if_pos hline, hline]
    cases kept with
    | nil => exact h.skip_blank hempty (by simp)
    | cons latest kept =>
      dsimp only
      split
      next hskip =>
        refine h.skip_blank hempty ?_
        rintro _ ⟨⟩
        exact hskip.imp_left (by rintro rfl; rfl)
      next hskip =>
        obtain ⟨hne, hopen⟩ := not_or.mp hskip
        exact h.cons_blank ⟨latest, rfl, fun hb ↦ hne (hempty latest List.mem_cons_self hb), hopen⟩
  · have hfilled : ¬ allBlank (trimEnd line) := by
      rwa [allBlank_trimEnd, ← trimEnd_eq_nil_iff]
    rw [if_neg hline]
    split
    next kept =>
      split
      next hclose => exact h.replace_blank hfilled hclose
      next hclose => exact h.cons_line hfilled fun _ _ _ ↦ hclose
    next hne =>
      refine h.cons_line hfilled fun latest hlatest hblank ↦ ?_
      obtain ⟨earlier, rfl⟩ := List.head?_eq_some_iff.mp hlatest
      obtain rfl := hempty latest List.mem_cons_self hblank
      exact absurd rfl (hne earlier)

theorem isLargest_foldl_keepLine (lines : List (List Char)) :
    IsLargest (lines.map trimEnd).reverse (lines.foldl keepLine []) := by
  induction lines using List.reverseRecOn with
  | nil =>
    exact ⟨⟨.refl _, rfl, .nil, by simp⟩, fun lines h ↦ h.sublist⟩
  | append_singleton lines line ih =>
    rw [List.foldl_append, List.map_append, List.reverse_append]
    refine ih.keepLine fun latest hlatest hblank ↦ ?_
    have hmem := List.mem_reverse.mp (ih.arranged.sublist.subset hlatest)
    exact eq_nil_of_mem_map_trimEnd hmem hblank

end Largest

/-- The lines are those of the source without the blanks at their ends and without some of the
blank lines, and they obey the rules for blank lines. -/
structure IsTidied (source lines : List (List Char)) : Prop where
  sublist : lines.Sublist (source.map trimEnd)
  filled : lines.filter (!allBlank ·) = (source.filter (!allBlank ·)).map trimEnd
  chain : lines.IsChain MayPrecede
  first : ∀ line ∈ lines.head?, ¬ allBlank line
  last : ∀ line ∈ lines.getLast?, ¬ allBlank line

instance (source lines : List (List Char)) : Decidable (IsTidied source lines) :=
  decidable_of_iff (lines.Sublist (source.map trimEnd) ∧
      lines.filter (!allBlank ·) = (source.filter (!allBlank ·)).map trimEnd ∧
      lines.IsChain MayPrecede ∧ (∀ line ∈ lines.head?, ¬ allBlank line) ∧
      ∀ line ∈ lines.getLast?, ¬ allBlank line)
    ⟨fun ⟨h₁, h₂, h₃, h₄, h₅⟩ ↦ ⟨h₁, h₂, h₃, h₄, h₅⟩,
      fun ⟨h₁, h₂, h₃, h₄, h₅⟩ ↦ ⟨h₁, h₂, h₃, h₄, h₅⟩⟩

section Tidied

variable {source lines : List (List Char)} {cs : List Char}

theorem isTidied_iff : IsTidied source lines ↔
    IsArranged (source.map trimEnd).reverse lines.reverse ∧
      ∀ line ∈ lines.getLast?, ¬ allBlank line := by
  constructor
  · rintro ⟨hsub, hfilled, hchain, hfirst, hlast⟩
    refine ⟨⟨hsub.reverse, ?_, List.isChain_reverse.mpr hchain, ?_⟩, hlast⟩
    · rw [List.filter_reverse, List.filter_reverse, hfilled, filter_map_trimEnd]
    · rwa [List.getLast?_reverse]
  · rintro ⟨⟨hsub, hfilled, hchain, hfirst⟩, hlast⟩
    rw [List.filter_reverse, List.filter_reverse, List.reverse_inj, filter_map_trimEnd] at hfilled
    rw [List.getLast?_reverse] at hfirst
    exact ⟨List.reverse_sublist.mp hsub, hfilled, List.isChain_reverse.mp hchain, hfirst, hlast⟩

theorem isTidied_keptLines (cs : List Char) : IsTidied (paragraphs cs) (keptLines cs) := by
  have h := isLargest_foldl_keepLine (paragraphs cs)
  rw [isTidied_iff, keptLines, List.reverse_reverse, List.getLast?_reverse]
  refine ⟨h.arranged.dropWhile, fun line hline hblank ↦ ?_⟩
  have hmem := h.arranged.dropWhile.sublist.subset (List.mem_of_mem_head? hline)
  have hnil := eq_nil_of_mem_map_trimEnd (List.mem_reverse.mp hmem) hblank
  have hnot := List.head?_dropWhile_not (· == []) ((paragraphs cs).foldl keepLine [])
  rw [Option.mem_def.mp hline] at hnot
  exact beq_eq_false_iff_ne.mp hnot hnil

theorem IsTidied.sublist_keptLines (h : IsTidied (paragraphs cs) lines) :
    lines.Sublist (keptLines cs) := by
  obtain ⟨harranged, hlast⟩ := isTidied_iff.mp h
  have hsub := (isLargest_foldl_keepLine (paragraphs cs)).largest _ harranged
  rw [keptLines, ← List.reverse_sublist, List.reverse_reverse]
  refine sublist_dropWhile hsub ?_
  rintro _ hline rfl
  rw [List.head?_reverse] at hline
  exact hlast [] hline rfl

theorem IsTidied.map_trimEnd (h : IsTidied source lines) : lines.map trimEnd = lines := by
  refine (List.map_congr_left fun line hline ↦ ?_).trans (List.map_id lines)
  obtain ⟨line, -, rfl⟩ := List.mem_map.mp (h.sublist.subset hline)
  exact trimEnd_trimEnd line

theorem IsTidied.self (h : IsTidied source lines) : IsTidied lines lines := by
  refine ⟨?_, ?_, h.chain, h.first, h.last⟩
  · rw [h.map_trimEnd]
  · rw [← filter_map_trimEnd, h.map_trimEnd]

theorem IsTidied.eq_nil_iff (h : IsTidied source lines) :
    lines = [] ↔ ∀ line ∈ source, allBlank line := by
  have hsource : lines.filter (!allBlank ·) = [] ↔ ∀ line ∈ source, allBlank line := by
    rw [h.filled, List.map_eq_nil_iff, List.filter_eq_nil_iff]
    simp
  rw [← hsource]
  constructor
  · rintro rfl
    rfl
  · intro hnil
    cases lines with
    | nil => rfl
    | cons line lines =>
      rw [List.filter_cons_of_pos (by simpa using h.first line rfl)] at hnil
      cases hnil

theorem IsTidied.notMem (h : IsTidied (paragraphs cs) lines) : ∀ line ∈ lines, '\n' ∉ line := by
  intro line hline hc
  obtain ⟨line, hmem, rfl⟩ := List.mem_map.mp (h.sublist.subset hline)
  exact notMem_of_mem_paragraphs hmem (trimEnd_subset line hc)

theorem IsTidied.getLast?_ne (h : IsTidied source lines) :
    ∀ line ∈ lines, line.getLast? ≠ some '\r' := by
  intro line hline hreturn
  obtain ⟨line, -, rfl⟩ := List.mem_map.mp (h.sublist.subset hline)
  exact not_of_getLast?_dropEndWhile '\r' hreturn rfl

theorem paragraphs_tidy (h : keptLines cs ≠ []) : paragraphs (tidy cs) = keptLines cs := by
  have hlines := isTidied_keptLines cs
  rw [tidy, ← endedLines_splitLines, splitLines_joinLines h hlines.notMem,
    paragraphs_endedLines hlines.notMem hlines.getLast?_ne]

theorem keptLines_tidy (h : keptLines cs ≠ []) : keptLines (tidy cs) = keptLines cs := by
  have hagain := isTidied_keptLines (tidy cs)
  have hself := (isTidied_keptLines cs).self
  rw [← paragraphs_tidy h] at hself
  refine List.Sublist.antisymm ?_ ?_
  · have hsub := hagain.sublist
    rwa [paragraphs_tidy h, (isTidied_keptLines cs).map_trimEnd] at hsub
  · have hsub := hself.sublist_keptLines
    rwa [paragraphs_tidy h] at hsub

theorem trimEnd_joinLines_keptLines (cs : List Char) :
    trimEnd (joinLines (keptLines cs)) = joinLines (keptLines cs) := by
  have h := isTidied_keptLines cs
  rcases List.eq_nil_or_concat (keptLines cs) with hnil | ⟨front, last, hlines⟩
  · rw [hnil]
    rfl
  · rw [List.concat_eq_append] at hlines
    have hne : last ≠ [] := by
      rintro rfl
      exact h.last [] (by rw [hlines, List.getLast?_concat]; rfl) rfl
    obtain ⟨line, -, hline⟩ := List.mem_map.mp (h.sublist.subset (a := last) (by simp [hlines]))
    refine dropEndWhile_eq_self ?_
    rw [hlines, joinLines_append_cons, joinLines, List.intercalate_singleton,
      List.getLast?_append_of_ne_nil _ hne, ← hline]
    exact fun c ↦ not_of_getLast?_dropEndWhile c

theorem getLast?_joinLines_keptLines (cs : List Char) :
    (joinLines (keptLines cs)).getLast? ≠ some '\n' := by
  rw [← trimEnd_joinLines_keptLines]
  exact fun hlast ↦ not_of_getLast?_dropEndWhile '\n' hlast rfl

end Tidied

theorem tidy_isTidied (cs : List Char) :
    ((∀ line ∈ paragraphs cs, allBlank line) → tidy cs = ['\n']) ∧
      ((∃ line ∈ paragraphs cs, ¬ allBlank line) →
        IsTidied (paragraphs cs) (paragraphs (tidy cs)) ∧
          ∀ lines, IsTidied (paragraphs cs) lines → lines.Sublist (paragraphs (tidy cs))) ∧
      (∃ body, tidy cs = body ++ ['\n'] ∧ body.getLast? ≠ some '\n') ∧
      tidy (tidy cs) = tidy cs := by
  have h := isTidied_keptLines cs
  have hblank : keptLines cs = [] → tidy cs = ['\n'] := fun hnil ↦ by rw [tidy, hnil]; rfl
  refine ⟨fun hlines ↦ hblank (h.eq_nil_iff.mpr hlines), ?_,
    ⟨_, rfl, getLast?_joinLines_keptLines cs⟩, ?_⟩
  · rintro ⟨line, hmem, hline⟩
    have hne : keptLines cs ≠ [] := fun hnil ↦ hline (h.eq_nil_iff.mp hnil line hmem)
    rw [paragraphs_tidy hne]
    exact ⟨h, fun lines hlines ↦ hlines.sublist_keptLines⟩
  · by_cases hnil : keptLines cs = []
    · rw [hblank hnil]
      decide
    · rw [tidy, keptLines_tidy hnil, ← tidy]

/-- Of the blank lines in a block the one between its members is kept. The text without it obeys
the rules as well, but has fewer lines. -/
theorem tidy_isTidied_block :
    let cs := "class A \x7b\n\n  x: 1, \n \n\n  y: 2,\n\n\x7d\n\n".toList
    let dense := ["class A \x7b", "  x: 1,", "  y: 2,", "\x7d"].map String.toList
    let lines := ["class A \x7b", "  x: 1,", "", "  y: 2,", "\x7d"].map String.toList
    (∃ line ∈ paragraphs cs, ¬ allBlank line) ∧ IsTidied (paragraphs cs) dense ∧
      IsTidied (paragraphs cs) (paragraphs (tidy cs)) ∧ dense.Sublist (paragraphs (tidy cs)) ∧
      paragraphs (tidy cs) = lines ∧
      (∀ line ∈ paragraphs [' ', '\n', '\n'], allBlank line) ∧ tidy [' ', '\n', '\n'] = ['\n'] := by
  intro cs dense lines
  have hfilled : ∃ line ∈ paragraphs cs, ¬ allBlank line := by decide
  have hdense : IsTidied (paragraphs cs) dense := by decide
  have hblank : ∀ line ∈ paragraphs [' ', '\n', '\n'], allBlank line := by decide
  obtain ⟨htidied, hlargest⟩ := (tidy_isTidied cs).2.1 hfilled
  exact ⟨hfilled, hdense, htidied, hlargest dense hdense, by decide, hblank,
    (tidy_isTidied [' ', '\n', '\n']).1 hblank⟩

end SchemaBindings.Template
