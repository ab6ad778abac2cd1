import SchemaBindings.Proofs.Source.Appending
import SchemaBindings.Proofs.Template.Tidying

namespace SchemaBindings

open Text

theorem endsLine_nil : EndsLine [] := by
  simp [EndsLine]

theorem EndsLine.append {front back : List Char} (hfront : EndsLine front) (hback : EndsLine back) :
    EndsLine (front ++ back) := by
  intro c hc
  rw [List.getLast?_append] at hc
  cases hlast : back.getLast? with
  | none =>
    rw [hlast, Option.none_or] at hc
    exact hfront c hc
  | some d =>
    rw [hlast] at hc
    cases hc
    exact hback c hlast

theorem EndsLine.exists_splitLines_append {front : List Char} (h : EndsLine front)
    (cs : List Char) : ∃ lines, splitLines (front ++ cs) = lines ++ splitLines cs := by
  rcases List.eq_nil_or_concat front with rfl | ⟨front, last, rfl⟩
  · exact ⟨[], rfl⟩
  · obtain rfl : last = '\n' := h last (by simp)
    refine ⟨splitLines front, ?_⟩
    rw [List.concat_eq_append, List.append_assoc, List.singleton_append, splitLines_append]

theorem endedLines_append (front back : List (List Char)) :
    endedLines (front ++ back) = endedLines front ++ endedLines back :=
  List.flatMap_append

theorem joinLines_append_newline {lines : List (List Char)} (h : lines ≠ []) :
    joinLines lines ++ ['\n'] = endedLines lines := by
  obtain ⟨front, last, rfl⟩ := (List.eq_nil_or_concat lines).resolve_left h
  rw [List.concat_eq_append, joinLines_append_cons, endedLines_append, joinLines,
    List.intercalate_singleton]
  simp

namespace Template

theorem dropWhile_append_cons_of_neg {α : Type} {p : α → Bool} {a : α} (h : ¬ p a)
    (front back : List α) :
    (front ++ a :: back).dropWhile p = front.dropWhile p ++ a :: back := by
  rw [List.dropWhile_append, List.dropWhile_cons_of_neg h]
  split
  next hnil => rw [List.isEmpty_iff.mp hnil, List.nil_append]
  next => rfl

section Kept

variable {kept earlier : List (List Char)} {latest line : List Char}

theorem keepLine_cons_of_blank (h : allBlank line) : keepLine (latest :: kept) line =
    if latest = [] ∨ opensBlock latest then latest :: kept else [] :: latest :: kept := by
  rw [keepLine.eq_def]
  simp only [trimEnd_eq_nil_iff.mpr h, if_true]

theorem keepLine_cons_of_not_blank (h : ¬ allBlank line) : keepLine (latest :: kept) line =
    if latest = [] ∧ closesBlock (trimEnd line) then trimEnd line :: kept
    else trimEnd line :: latest :: kept := by
  rw [keepLine.eq_def]
  simp only [trimEnd_eq_nil_iff, h]
  cases latest <;> simp

/-- Whether and how a line is kept depends on the latest of the lines before it alone. -/
theorem keepLine_append (h : kept ≠ []) (line : List Char) :
    keepLine (kept ++ earlier) line = keepLine kept line ++ earlier := by
  obtain ⟨latest, kept, rfl⟩ := List.exists_cons_of_ne_nil h
  rw [List.cons_append]
  by_cases hline : allBlank line
  · rw [keepLine_cons_of_blank hline, keepLine_cons_of_blank hline]
    split <;> rfl
  · rw [keepLine_cons_of_not_blank hline, keepLine_cons_of_not_blank hline]
    split <;> rfl

theorem keepLine_ne_nil (h : kept ≠ []) (line : List Char) : keepLine kept line ≠ [] := by
  obtain ⟨latest, kept, rfl⟩ := List.exists_cons_of_ne_nil h
  by_cases hline : allBlank line
  · rw [keepLine_cons_of_blank hline]
    split <;> exact List.cons_ne_nil _ _
  · rw [keepLine_cons_of_not_blank hline]
    split <;> exact List.cons_ne_nil _ _

theorem foldl_keepLine_append (h : kept ≠ []) (lines : List (List Char)) :
    lines.foldl keepLine (kept ++ earlier) = lines.foldl keepLine kept ++ earlier := by
  induction lines generalizing kept with
  | nil => rfl
  | cons line lines ih =>
    rw [List.foldl_cons, keepLine_append h, ih (keepLine_ne_nil h line), List.foldl_cons]

theorem exists_keepLine_eq (h : latest ≠ []) (line : List Char) :
    ∃ later, keepLine (latest :: kept) line = later ++ latest :: kept := by
  by_cases hline : allBlank line
  · rw [keepLine_cons_of_blank hline]
    split
    · exact ⟨[], rfl⟩
    · exact ⟨[[]], rfl⟩
  · rw [keepLine_cons_of_not_blank hline, if_neg fun hnil ↦ h hnil.1]
    exact ⟨[trimEnd line], rfl⟩

theorem exists_foldl_keepLine_eq (h : latest ≠ []) (lines : List (List Char)) :
    ∃ later, lines.foldl keepLine (latest :: kept) = later ++ latest :: kept := by
  induction lines using List.reverseRecOn with
  | nil => exact ⟨[], rfl⟩
  | append_singleton lines line ih =>
    obtain ⟨later, hlater⟩ := ih
    rw [List.foldl_append, hlater, List.foldl_cons, List.foldl_nil]
    cases later with
    | nil => exact exists_keepLine_eq h line
    | cons second later => exact ⟨_, keepLine_append (List.cons_ne_nil _ _) line⟩

theorem keepLine_nil_of_not_blank (h : ¬ allBlank line) : keepLine [] line = [trimEnd line] := by
  simp [keepLine, trimEnd_eq_nil_iff, h]

theorem exists_keepLine_eq_cons (h : ¬ allBlank line) (kept : List (List Char)) :
    ∃ earlier, keepLine kept line = trimEnd line :: earlier := by
  cases kept with
  | nil => exact ⟨[], keepLine_nil_of_not_blank h⟩
  | cons latest kept =>
    rw [keepLine_cons_of_not_blank h]
    split <;> exact ⟨_, rfl⟩

theorem exists_foldl_keepLine_eq_append {lines : List (List Char)}
    (h : ∃ line ∈ lines, ¬ allBlank line) (kept : List (List Char)) :
    ∃ earlier, lines.foldl keepLine kept = lines.foldl keepLine [] ++ earlier := by
  induction lines generalizing kept with
  | nil => simp at h
  | cons line lines ih =>
    by_cases hline : allBlank line
    · have hrest : ∃ line ∈ lines, ¬ allBlank line := by simpa [hline] using h
      have hnone : keepLine [] line = [] := by simp [keepLine, trimEnd_eq_nil_iff.mpr hline]
      rw [List.foldl_cons, List.foldl_cons, hnone]
      exact ih hrest _
    · obtain ⟨earlier, hearlier⟩ := exists_keepLine_eq_cons hline kept
      refine ⟨earlier, ?_⟩
      rw [List.foldl_cons, List.foldl_cons, keepLine_nil_of_not_blank hline, hearlier,
        ← foldl_keepLine_append (List.cons_ne_nil _ _), List.singleton_append]

theorem trimEnd_dropFinalReturn (line : List Char) :
    trimEnd (dropFinalReturn line) = trimEnd line := by
  obtain ⟨ends, heq, rfl | rfl⟩ := exists_eq_dropFinalReturn_append line
  · rw [List.append_nil] at heq
    rw [← heq]
  · conv_rhs => rw [heq]
    exact (dropEndWhile_append_of_pos (List.forall_mem_singleton.mpr rfl)).symm

theorem keptLines_eq (cs : List Char) :
    keptLines cs = (((splitLines cs).foldl keepLine []).dropWhile (· == [])).reverse := by
  obtain ⟨pieces, last, hsplit, hlines⟩ := exists_splitLines_eq cs
  have hpieces : (pieces.map dropFinalReturn).foldl keepLine [] = pieces.foldl keepLine [] := by
    rw [List.foldl_map]
    congr 1
    funext kept line
    rw [keepLine.eq_def, keepLine.eq_def, trimEnd_dropFinalReturn]
  rw [keptLines, hsplit, hlines, List.foldl_append, List.foldl_append, hpieces]
  congr 1
  split
  next hlast =>
    subst hlast
    rw [List.foldl_nil, List.foldl_cons, List.foldl_nil]
    cases pieces.foldl keepLine [] with
    | nil => rfl
    | cons latest kept =>
      rw [keepLine_cons_of_blank rfl]
      split
      · rfl
      · rfl
  next => rfl

end Kept

section Block

variable {front block back : List Char}

theorem exists_splitLines_eq_concat (hfilled : ¬ allBlank block) (htrim : trimEnd block = block) :
    ∃ lines last, splitLines block = lines ++ [last] ∧ ¬ allBlank last ∧ trimEnd last = last := by
  obtain ⟨lines, last, hlines⟩ :=
    (List.eq_nil_or_concat (splitLines block)).resolve_left (splitAt_ne_nil _ block)
  rw [List.concat_eq_append] at hlines
  have hblock : block = endedLines lines ++ last := by
    rw [← joinLines_splitLines block, hlines, joinLines_append_cons, joinLines,
      List.intercalate_singleton]
  have hend : ∀ c ∈ block.getLast?, ¬ isBlank c := by
    rw [← htrim]
    exact fun c ↦ not_of_getLast?_dropEndWhile c
  have hne : last ≠ [] := by
    rintro rfl
    rw [List.append_nil] at hblock
    cases hlast : block.getLast? with
    | none => exact hfilled (by rw [List.getLast?_eq_none_iff.mp hlast]; rfl)
    | some c =>
      obtain rfl : c = '\n' := endsLine_endedLines lines c (hblock ▸ hlast)
      exact hend _ hlast (by decide)
  rw [hblock, List.getLast?_append_of_ne_nil _ hne] at hend
  refine ⟨lines, last, hlines, fun hall ↦ ?_, dropEndWhile_eq_self hend⟩
  have hlast := List.getLast?_eq_some_getLast hne
  exact hend _ hlast (List.all_eq_true.mp hall _ (List.getLast_mem hne))

theorem exists_foldl_keepLine_eq_cons (hfilled : ¬ allBlank block) (htrim : trimEnd block = block) :
    ∃ latest kept, (splitLines block).foldl keepLine [] = latest :: kept ∧ latest ≠ [] := by
  obtain ⟨lines, last, hlines, hlast, -⟩ := exists_splitLines_eq_concat hfilled htrim
  obtain ⟨earlier, hearlier⟩ := exists_keepLine_eq_cons hlast (lines.foldl keepLine [])
  refine ⟨trimEnd last, earlier, ?_, mt trimEnd_eq_nil_iff.mp hlast⟩
  rw [hlines, List.foldl_append, List.foldl_cons, List.foldl_nil, hearlier]

theorem exists_tidy_eq_append (hfront : EndsLine front) (hfilled : ¬ allBlank block)
    (htrim : trimEnd block = block) (back : List Char) : ∃ before after,
      tidy (front ++ (block ++ '\n' :: back)) = before ++ tidy block ++ after ∧
        EndsLine before := by
  obtain ⟨lines, hlines⟩ := hfront.exists_splitLines_append (block ++ '\n' :: back)
  obtain ⟨_, last, hblock, hlast, -⟩ := exists_splitLines_eq_concat hfilled htrim
  have hline : ∃ line ∈ splitLines block, ¬ allBlank line := ⟨last, by simp [hblock], hlast⟩
  obtain ⟨earlier, hearlier⟩ := exists_foldl_keepLine_eq_append hline (lines.foldl keepLine [])
  obtain ⟨latest, kept, hkept, hlatest⟩ := exists_foldl_keepLine_eq_cons hfilled htrim
  obtain ⟨later, hlater⟩ : ∃ later, (splitLines back).foldl keepLine (latest :: (kept ++ earlier)) =
      later ++ latest :: (kept ++ earlier) := exists_foldl_keepLine_eq hlatest (splitLines back)
  have hblock : keptLines block = (latest :: kept).reverse := by
    rw [keptLines_eq, hkept, List.dropWhile_cons_of_neg (by simpa using hlatest)]
  have hwhole : keptLines (front ++ (block ++ '\n' :: back)) =
      earlier.reverse ++ keptLines block ++ (later.dropWhile (· == [])).reverse := by
    rw [keptLines_eq, hlines, splitLines_append, List.foldl_append, List.foldl_append, hearlier,
      hkept, List.cons_append, hlater,
      dropWhile_append_cons_of_neg (by simpa using hlatest), hblock]
    simp
  refine ⟨endedLines earlier.reverse, endedLines (later.dropWhile (· == [])).reverse, ?_,
    endsLine_endedLines _⟩
  have hne : keptLines block ≠ [] := by simp [hblock]
  rw [tidy, tidy, joinLines_append_newline hne, hwhole, joinLines_append_newline (by simp [hne]),
    endedLines_append, endedLines_append]

end Block

/-- No line ends with blanks, and the rules for blank lines hold between neighbouring lines. -/
structure ObeysRules (lines : List (List Char)) : Prop where
  trimmed : ∀ line ∈ lines, trimEnd line = line
  chain : lines.IsChain MayPrecede

def filledLines (cs : List Char) : List (List Char) :=
  (splitLines cs).dropWhile allBlank

section Parts

variable {a b first last : List Char} {lines front back : List (List Char)} {cs block : List Char}

theorem filledLines_eq_self (h : ∀ line ∈ (splitLines cs).head?, ¬ allBlank line) :
    filledLines cs = splitLines cs := by
  obtain ⟨first, back, hcs⟩ := List.exists_cons_of_ne_nil (splitAt_ne_nil (· == '\n') cs)
  rw [splitLines, hcs] at h
  rw [filledLines, splitLines, hcs, List.dropWhile_cons_of_neg (h first rfl)]

theorem trimEnd_eq_self_iff : trimEnd last = last ↔ ∀ c ∈ last.getLast?, ¬ isBlank c := by
  refine ⟨fun h ↦ ?_, dropEndWhile_eq_self⟩
  rw [← h]
  exact not_of_getLast?_dropEndWhile

theorem map_trimEnd_eq_self_iff :
    lines.map trimEnd = lines ↔ ∀ line ∈ lines, trimEnd line = line := by
  conv_lhs => rhs; rw [← List.map_id lines]
  exact List.map_inj_left

theorem isTidied_self_iff : IsTidied lines lines ↔ ObeysRules lines ∧
    (∀ line ∈ lines.head?, ¬ allBlank line) ∧ ∀ line ∈ lines.getLast?, ¬ allBlank line := by
  constructor
  · intro h
    exact ⟨⟨map_trimEnd_eq_self_iff.mp h.map_trimEnd, h.chain⟩, h.first, h.last⟩
  · rintro ⟨⟨htrimmed, hchain⟩, hfirst, hlast⟩
    have hmap : lines.map trimEnd = lines := map_trimEnd_eq_self_iff.mpr htrimmed
    exact ⟨by rw [hmap], by rw [← filter_map_trimEnd, hmap], hchain, hfirst, hlast⟩

theorem ObeysRules.of_suffix (h : ObeysRules lines) (hsuffix : back <:+ lines) :
    ObeysRules back :=
  ⟨fun line hline ↦ h.trimmed line (hsuffix.subset hline), h.chain.suffix hsuffix⟩

theorem MayPrecede.of_append_left (h : MayPrecede (a ++ first) b) (hfirst : ¬ allBlank first) :
    MayPrecede first b := by
  have hne : first ≠ [] := by
    rintro rfl
    exact hfirst rfl
  refine ⟨fun hblank ↦ hfirst hblank.1, fun hb ↦ ?_, fun hblank ↦ absurd hblank hfirst⟩
  rw [← List.getLast?_append_of_ne_nil a hne]
  exact h.opening hb

theorem MayPrecede.of_append_right (h : MayPrecede a (last ++ b)) (hlast : ¬ allBlank last) :
    MayPrecede a last := by
  refine ⟨fun hblank ↦ hlast hblank.2, fun hblank ↦ absurd hblank hlast, fun ha c hc ↦ ?_⟩
  refine h.closing ha c ?_
  obtain ⟨rest, hrest⟩ := List.head?_eq_some_iff.mp hc
  rw [trimStart] at hrest ⊢
  rw [List.dropWhile_append, hrest]
  rfl

theorem ObeysRules.dropWhile_of_append (h : ObeysRules (front ++ (a ++ first) :: back)) :
    ObeysRules ((first :: back).dropWhile allBlank) := by
  have htail := h.of_suffix (List.suffix_append front _)
  by_cases hfirst : allBlank first
  · rw [List.dropWhile_cons_of_pos hfirst]
    exact (htail.of_suffix (List.suffix_cons _ _)).of_suffix (List.dropWhile_suffix _)
  · obtain ⟨hline, hback⟩ := List.forall_mem_cons.mp htail.trimmed
    obtain ⟨hnext, hchain⟩ := List.isChain_cons.mp htail.chain
    rw [List.dropWhile_cons_of_neg hfirst]
    refine ⟨List.forall_mem_cons.mpr ⟨?_, hback⟩,
      List.isChain_cons.mpr ⟨fun line hline ↦ (hnext line hline).of_append_left hfirst, hchain⟩⟩
    have hne : first ≠ [] := by
      rintro rfl
      exact hfirst rfl
    rwa [trimEnd_eq_self_iff, List.getLast?_append_of_ne_nil a hne, ← trimEnd_eq_self_iff] at hline

theorem ObeysRules.concat_of_append (h : ObeysRules (front ++ (last ++ b) :: back))
    (hlast : ¬ allBlank last) (htrim : trimEnd last = last) : ObeysRules (front ++ [last]) := by
  obtain ⟨hfront, -⟩ := List.forall_mem_append.mp h.trimmed
  obtain ⟨hchain, -, hnext⟩ := List.isChain_append.mp h.chain
  refine ⟨List.forall_mem_append.mpr ⟨hfront, List.forall_mem_singleton.mpr htrim⟩,
    List.isChain_append.mpr ⟨hchain, .singleton _, fun line hline line' hline' ↦ ?_⟩⟩
  cases hline'
  exact (hnext line hline _ rfl).of_append_right hlast

theorem exists_splitLines_append_left (pre cs : List Char) : ∃ front a first back,
    splitLines cs = first :: back ∧ splitLines (pre ++ cs) = front ++ (a ++ first) :: back := by
  induction pre with
  | nil =>
    obtain ⟨first, back, hcs⟩ := List.exists_cons_of_ne_nil (splitAt_ne_nil (· == '\n') cs)
    exact ⟨[], [], first, back, hcs, hcs⟩
  | cons c pre ih =>
    obtain ⟨front, a, first, back, hcs, hpre⟩ := ih
    by_cases hc : c == '\n'
    · exact ⟨[] :: front, a, first, back, hcs, by
        rw [List.cons_append, splitLines, splitAt, if_pos hc, ← splitLines, hpre]; rfl⟩
    · obtain ⟨piece, pieces, hs, hcons⟩ := splitAt_cons_of_neg (p := (· == '\n')) hc (pre ++ cs)
      rw [splitLines] at hpre
      rw [hpre] at hs
      cases front with
      | nil =>
        cases hs
        exact ⟨[], c :: a, first, back, hcs, hcons⟩
      | cons line front =>
        cases hs
        exact ⟨(c :: piece) :: front, a, first, back, hcs, hcons⟩

theorem exists_splitLines_append_right (cs post : List Char) : ∃ front last b back,
    splitLines cs = front ++ [last] ∧ splitLines (cs ++ post) = front ++ (last ++ b) :: back := by
  induction cs with
  | nil =>
    obtain ⟨b, back, hpost⟩ := List.exists_cons_of_ne_nil (splitAt_ne_nil (· == '\n') post)
    exact ⟨[], [], b, back, rfl, hpost⟩
  | cons c cs ih =>
    obtain ⟨front, last, b, back, hcs, hpost⟩ := ih
    by_cases hc : c == '\n'
    · refine ⟨[] :: front, last, b, back, ?_, ?_⟩
      · rw [splitLines, splitAt, if_pos hc, ← splitLines, hcs]; rfl
      · rw [List.cons_append, splitLines, splitAt, if_pos hc, ← splitLines, hpost]; rfl
    · obtain ⟨piece, pieces, hs, hcons⟩ := splitAt_cons_of_neg (p := (· == '\n')) hc cs
      obtain ⟨piece', pieces', hs', hcons'⟩ :=
        splitAt_cons_of_neg (p := (· == '\n')) hc (cs ++ post)
      rw [splitLines] at hcs hpost
      rw [hcs] at hs
      rw [hpost] at hs'
      cases front with
      | nil =>
        cases hs
        cases hs'
        exact ⟨[], c :: last, b, back, hcons, hcons'⟩
      | cons line front =>
        cases hs
        cases hs'
        exact ⟨(c :: piece) :: front, last, b, back, hcons, hcons'⟩

theorem infix_joinLines_of_infix_tidy (h : block <:+: tidy cs) (hfilled : ¬ allBlank block)
    (htrim : trimEnd block = block) : block <:+: joinLines (keptLines cs) := by
  obtain ⟨pre, post, heq⟩ := h
  rcases List.eq_nil_or_concat post with rfl | ⟨post, last, rfl⟩
  · have hne : block ≠ [] := by
      rintro rfl
      exact hfilled rfl
    have hlast : block.getLast? = some '\n' := by
      rw [List.append_nil] at heq
      rw [← List.getLast?_append_of_ne_nil pre hne, heq, tidy, List.getLast?_concat]
    exact absurd (by decide) (trimEnd_eq_self_iff.mp htrim '\n' hlast)
  · rw [List.concat_eq_append, ← List.append_assoc, tidy] at heq
    exact ⟨pre, post, (List.append_inj' heq rfl).1⟩

theorem isTidied_of_infix_tidy (h : block <:+: tidy cs) (hfilled : ¬ allBlank block)
    (htrim : trimEnd block = block) : IsTidied (filledLines block) (filledLines block) := by
  obtain ⟨pre, post, hkept⟩ := infix_joinLines_of_infix_tidy h hfilled htrim
  have hlines : splitLines (pre ++ (block ++ post)) = keptLines cs := by
    have hne : keptLines cs ≠ [] := by
      intro hnil
      rw [hnil] at hkept
      have hblock : block = [] := by
        simp only [joinLines, List.intercalate_nil, List.append_eq_nil_iff] at hkept
        exact hkept.1.2
      rw [hblock] at hfilled
      exact hfilled rfl
    rw [← List.append_assoc, hkept, splitLines_joinLines hne (isTidied_keptLines cs).notMem]
  have hrules : ObeysRules (splitLines (pre ++ (block ++ post))) := by
    rw [hlines]
    exact (isTidied_self_iff.mp (isTidied_keptLines cs).self).1
  obtain ⟨_, _, first, back, hpost, hpre⟩ := exists_splitLines_append_left pre (block ++ post)
  obtain ⟨front, last, b, back', hblock, hpost'⟩ := exists_splitLines_append_right block post
  obtain ⟨_, last', hblock', hlast, htrimmed⟩ := exists_splitLines_eq_concat hfilled htrim
  obtain rfl : last = last' := by
    rw [hblock] at hblock'
    exact (List.append_inj' hblock' rfl).2 |> List.singleton_inj.mp
  rw [hpre] at hrules
  have hdrop := hrules.dropWhile_of_append
  rw [← hpost, hpost'] at hdrop
  have hlong : ¬ allBlank (last ++ b) := by
    rw [allBlank, List.all_append, Bool.and_eq_true]
    exact fun hall ↦ hlast hall.1
  rw [dropWhile_append_cons_of_neg hlong] at hdrop
  rw [isTidied_self_iff, filledLines, hblock, dropWhile_append_cons_of_neg hlast]
  refine ⟨hdrop.concat_of_append hlast htrimmed, fun line hline hblank ↦ ?_, ?_⟩
  · rw [← dropWhile_append_cons_of_neg hlast] at hline
    have hnot := List.head?_dropWhile_not allBlank (front ++ [last])
    rw [Option.mem_def.mp hline] at hnot
    exact absurd hblank (by simpa using hnot)
  · rw [List.getLast?_concat]
    rintro _ ⟨⟩
    exact hlast

/-- A block that obeys the rules is left as it is. -/
theorem tidy_eq_of_isTidied (h : IsTidied (splitLines block) (splitLines block)) :
    tidy block = block ++ ['\n'] := by
  obtain ⟨pieces, last, hsplit, hlines⟩ := exists_splitLines_eq block
  have hparagraphs : paragraphs block = splitLines block := by
    have hlast : last ≠ [] := by
      rintro rfl
      exact h.last [] (by rw [hsplit, List.getLast?_concat]; rfl) rfl
    have hpieces : pieces.map dropFinalReturn = pieces := by
      refine (List.map_congr_left fun piece hpiece ↦ ?_).trans (List.map_id _)
      exact dropFinalReturn_eq_self (h.getLast?_ne piece (by simp [hsplit, hpiece]))
    rw [hlines, hsplit, if_neg hlast, hpieces]
  have hkept := isTidied_keptLines block
  have heq : keptLines block = splitLines block := by
    refine List.Sublist.antisymm ?_ (IsTidied.sublist_keptLines (by rwa [hparagraphs]))
    have hsub := hkept.sublist
    rwa [hparagraphs, h.map_trimEnd] at hsub
  rw [tidy, heq, joinLines_splitLines]

end Parts

section Twice

variable {cs : List Char}

theorem allBlank_iff_paragraphs : allBlank cs ↔ ∀ line ∈ paragraphs cs, allBlank line := by
  have hended (lines : List (List Char)) :
      allBlank (endedLines lines) ↔ ∀ line ∈ lines, allBlank line := by
    simp [allBlank, endedLines, isBlank]
  have hreturn (piece : List Char) : allBlank (dropFinalReturn piece) ↔ allBlank piece := by
    rw [← trimEnd_eq_nil_iff, trimEnd_dropFinalReturn, trimEnd_eq_nil_iff]
  rw [forall_mem_paragraphs_iff (P := fun line ↦ allBlank line) rfl hreturn, ← hended,
    endedLines_splitLines]
  simp [allBlank, isBlank]

theorem keptLines_eq_nil_iff : keptLines cs = [] ↔ allBlank cs :=
  (isTidied_keptLines cs).eq_nil_iff.trans allBlank_iff_paragraphs.symm

theorem not_allBlank_tidy (h : ¬ allBlank cs) : ¬ allBlank (tidy cs) := by
  rw [← keptLines_eq_nil_iff] at h ⊢
  rwa [keptLines_tidy h]

/-- A declaration that has been tidied is tidied with its file without being changed. -/
theorem tidy_trimEnd_tidy (h : ¬ allBlank cs) : tidy (trimEnd (tidy cs)) = tidy cs := by
  have hlines := isTidied_keptLines cs
  have hsplit : splitLines (joinLines (keptLines cs)) = keptLines cs :=
    splitLines_joinLines (mt keptLines_eq_nil_iff.mp h) hlines.notMem
  have htrim : trimEnd (tidy cs) = joinLines (keptLines cs) :=
    (dropEndWhile_append_of_pos (List.forall_mem_singleton.mpr rfl)).trans
      (trimEnd_joinLines_keptLines cs)
  rw [htrim, tidy_eq_of_isTidied (by rw [hsplit]; exact hlines.self), ← tidy]

end Twice

end Template

end SchemaBindings
