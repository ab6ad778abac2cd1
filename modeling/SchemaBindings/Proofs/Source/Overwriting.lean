import SchemaBindings.Proofs.Source.Appending
import SchemaBindings.Sdl.Lexer
import Mathlib.Data.List.Basic

namespace SchemaBindings

open Text Sdl

namespace Text

def overwriteComment (body line : List Char) : List Char :=
  line.takeWhile isBlank ++ '#' :: (body ++ (trimStart line).dropWhile fun c ↦ !isLineEnd c)

/-- A line that begins with a comment, in its parts. What follows the comment after a carriage
return belongs to the line. -/
structure IsCommentLine (line lead comment tail : List Char) : Prop where
  line_eq : line = lead ++ '#' :: (comment ++ tail)
  lead_blank : ∀ c ∈ lead, isBlank c
  comment_ends : ∀ c ∈ comment, isLineEnd c = false
  tail_starts : ∀ c ∈ tail.head?, isLineEnd c

theorem exists_isCommentLine {line rest : List Char} (h : trimStart line = '#' :: rest) :
    ∃ lead comment tail, IsCommentLine line lead comment tail := by
  refine ⟨line.takeWhile isBlank, rest.takeWhile fun c ↦ !isLineEnd c,
    rest.dropWhile fun c ↦ !isLineEnd c, ?_, ?_, ?_, ?_⟩
  · rw [List.takeWhile_append_dropWhile, ← h, trimStart, List.takeWhile_append_dropWhile]
  · exact fun c hc ↦ List.all_eq_true.mp List.all_takeWhile c hc
  · intro c hc
    simpa using List.all_eq_true.mp List.all_takeWhile c hc
  · intro c hc
    have hnot := List.head?_dropWhile_not (fun c ↦ !isLineEnd c) rest
    rw [Option.mem_def.mp hc] at hnot
    simpa using hnot

theorem IsCommentLine.trimStart_eq {line lead comment tail : List Char}
    (h : IsCommentLine line lead comment tail) : trimStart line = '#' :: (comment ++ tail) := by
  have hsign : ¬ isBlank '#' := by decide
  rw [h.line_eq, trimStart, List.dropWhile_append_of_pos h.lead_blank,
    List.dropWhile_cons_of_neg hsign]

theorem IsCommentLine.overwriteComment_eq {line lead comment tail : List Char}
    (h : IsCommentLine line lead comment tail) (body : List Char) :
    overwriteComment body line = lead ++ '#' :: (body ++ tail) := by
  have hsign : ¬ isBlank '#' := by decide
  have hlead : line.takeWhile isBlank = lead := by
    rw [h.line_eq, List.takeWhile_append_of_pos h.lead_blank, List.takeWhile_cons_of_neg hsign,
      List.append_nil]
  have htail : ('#' :: (comment ++ tail)).dropWhile (fun c ↦ !isLineEnd c) = tail := by
    rw [List.dropWhile_cons_of_pos (by decide),
      List.dropWhile_append_of_pos (by simpa using h.comment_ends)]
    cases tail with
    | nil => rfl
    | cons c tail => rw [List.dropWhile_cons_of_neg (by simp [h.tail_starts c (by simp)])]
  rw [overwriteComment, h.trimStart_eq, hlead, htail]

theorem IsCommentLine.overwriteComment {line lead comment tail body : List Char}
    (h : IsCommentLine line lead comment tail) (hbody : ∀ c ∈ body, isLineEnd c = false) :
    IsCommentLine (overwriteComment body line) lead body tail :=
  ⟨h.overwriteComment_eq body, h.lead_blank, hbody, h.tail_starts⟩

/-- The text can stand in the place of the comment with which the line begins. -/
structure FitsComment (body line : List Char) : Prop where
  comment : (trimStart line).head? = some '#'
  ends : ∀ c ∈ body, isLineEnd c = false
  length : byteLength (overwriteComment body line) = byteLength line

instance (body line : List Char) : Decidable (FitsComment body line) :=
  decidable_of_iff ((trimStart line).head? = some '#' ∧ body.any isLineEnd = false ∧
      byteLength (overwriteComment body line) = byteLength line)
    ⟨fun h ↦ ⟨h.1, by simpa using h.2.1, h.2.2⟩,
      fun h ↦ ⟨h.comment, by simpa using h.ends, h.length⟩⟩

theorem FitsComment.exists_isCommentLine {body line : List Char} (h : FitsComment body line) :
    ∃ lead comment tail, IsCommentLine line lead comment tail := by
  obtain ⟨rest, hrest⟩ := List.head?_eq_some_iff.mp h.comment
  exact Text.exists_isCommentLine hrest

theorem IsCommentLine.append {line lead comment tail ends : List Char}
    (h : IsCommentLine line lead comment tail) (hends : ∀ c ∈ ends, isLineEnd c) :
    IsCommentLine (line ++ ends) lead comment (tail ++ ends) := by
  obtain ⟨rfl, hlead, hcomment, htail⟩ := h
  refine ⟨by simp, hlead, hcomment, ?_⟩
  cases tail with
  | nil => exact fun c hc ↦ hends c (List.mem_of_mem_head? hc)
  | cons => exact htail

theorem FitsComment.of_dropEndWhile {body piece : List Char}
    (h : FitsComment body (dropEndWhile (· == '\r') piece)) :
    (∃ lead comment tail, IsCommentLine piece lead comment tail) ∧
      byteLength (overwriteComment body piece) = byteLength piece ∧
      dropEndWhile (· == '\r') (overwriteComment body piece) =
        overwriteComment body (dropEndWhile (· == '\r') piece) := by
  obtain ⟨ends, hpiece, hends⟩ := dropEndWhile_append (· == '\r') piece
  obtain ⟨lead, comment, tail, hline⟩ := h.exists_isCommentLine
  have hlast : ∀ c ∈ (dropEndWhile (· == '\r') piece).getLast?, ¬ (c == '\r') :=
    not_of_getLast?_dropEndWhile
  obtain ⟨-, hbody, hlength⟩ := h
  generalize dropEndWhile (· == '\r') piece = line at *
  have hends' : ∀ c ∈ ends, isLineEnd c := by
    intro c hc
    rw [beq_iff_eq.mp (hends c hc)]
    rfl
  have hline' := hline.append hends'
  rw [hpiece] at hline'
  have hsame : overwriteComment body piece = overwriteComment body line ++ ends := by
    rw [hline'.overwriteComment_eq, hline.overwriteComment_eq]
    simp
  refine ⟨⟨_, _, _, hline'⟩, ?_, ?_⟩
  · rw [hsame, ← hpiece, byteLength_append, byteLength_append, hlength]
  · rw [hsame, dropEndWhile_append_of_pos hends, dropEndWhile_eq_self]
    rw [hline.overwriteComment_eq]
    intro c hc
    cases tail with
    | nil =>
      rw [List.append_nil, List.getLast?_append_of_ne_nil _ (List.cons_ne_nil _ _)] at hc
      rcases List.mem_cons.mp (List.mem_of_getLast? hc) with rfl | hc
      · decide
      · intro he
        have hreturn := hbody c hc
        rw [beq_iff_eq.mp he] at hreturn
        cases hreturn
    | cons d tail =>
      have hcomment := hlast c
      rw [hline.line_eq, ← List.cons_append, ← List.append_assoc,
        List.getLast?_append_of_ne_nil _ (List.cons_ne_nil _ _)] at hcomment
      rw [← List.cons_append, ← List.append_assoc,
        List.getLast?_append_of_ne_nil _ (List.cons_ne_nil _ _)] at hc
      exact hcomment hc

end Text

/-- For some lines, by their numbers, what their comments are to be. -/
abbrev Edits := Nat → Option (List Char)

namespace Edits

variable (edits : Edits)

def apply (number : Nat) (text : List Char) : List Char :=
  match edits number with
  | some body => overwriteComment body text
  | none => text

def applyAll : (number : Nat) → List (List Char) → List (List Char)
  | _, [] => []
  | number, piece :: pieces => edits.apply number piece :: applyAll (number + 1) pieces

variable {edits}

theorem apply_of_none {number : Nat} (h : edits number = none) (text : List Char) :
    edits.apply number text = text := by
  rw [apply, h]

theorem apply_of_some {number : Nat} {body : List Char} (h : edits number = some body)
    (text : List Char) : edits.apply number text = overwriteComment body text := by
  rw [apply, h]

variable (edits)

def Fit (lines : List Line) : Prop :=
  ∀ line ∈ lines, ∀ body ∈ edits line.number, FitsComment body line.text

end Edits

def Line.overwrite (edits : Edits) (line : Line) : Line :=
  { line with text := edits.apply line.number line.text }

theorem Line.overwrite_of_none {edits : Edits} {line : Line} (h : edits line.number = none) :
    line.overwrite edits = line := by
  rw [overwrite, Edits.apply_of_none h]

theorem Line.text_overwrite_of_some {edits : Edits} {line : Line} {body : List Char}
    (h : edits line.number = some body) :
    (line.overwrite edits).text = overwriteComment body line.text :=
  Edits.apply_of_some h _

def SourceFile.overwrite (source : SourceFile) (edits : Edits) : SourceFile :=
  .ofText source.name (.ofList (joinLines (edits.applyAll 1 (splitLines source.chars))))

theorem Line.enumerate_applyAll {edits : Edits} {number start : Nat} {pieces : List (List Char)}
    (h : edits.Fit (enumerate number start pieces)) :
    enumerate number start (edits.applyAll number pieces) =
      (enumerate number start pieces).map (overwrite edits) := by
  induction pieces generalizing number start with
  | nil => rfl
  | cons piece pieces ih =>
    rw [enumerate, Edits.Fit, List.forall_mem_cons] at h
    rw [Edits.applyAll, enumerate, enumerate, List.map_cons, overwrite]
    have hrest := ih h.2
    cases hbody : edits number with
    | none => rw [Edits.apply_of_none hbody, Edits.apply_of_none hbody, hrest]
    | some body =>
      obtain ⟨-, hlength, hdrop⟩ := (h.1 body hbody).of_dropEndWhile
      rw [Edits.apply_of_some hbody, Edits.apply_of_some hbody, hlength, hdrop, hrest]

theorem Text.splitLines_joinLines {pieces : List (List Char)} (hne : pieces ≠ [])
    (h : ∀ piece ∈ pieces, '\n' ∉ piece) : splitLines (joinLines pieces) = pieces := by
  have hpiece {piece : List Char} (hp : '\n' ∉ piece) : splitLines piece = [piece] := by
    induction piece with
    | nil => rfl
    | cons c cs ih =>
      obtain ⟨hc, hcs⟩ := not_or.mp (List.mem_cons.not.mp hp)
      rw [splitLines] at ih ⊢
      rw [splitAt, if_neg (by simpa using Ne.symm hc), ih hcs]
  induction pieces with
  | nil => exact absurd rfl hne
  | cons piece pieces ih =>
    obtain ⟨hp, hps⟩ := List.forall_mem_cons.mp h
    cases pieces with
    | nil => rw [joinLines, List.intercalate_singleton, hpiece hp]
    | cons second pieces =>
      rw [joinLines_cons_cons, splitLines_append, hpiece hp, ih (List.cons_ne_nil _ _) hps]
      rfl

namespace Edits

variable {edits : Edits} {number start : Nat} {pieces : List (List Char)}

theorem applyAll_ne_nil (hne : pieces ≠ []) : edits.applyAll number pieces ≠ [] := by
  cases pieces with
  | nil => exact absurd rfl hne
  | cons piece pieces => exact List.cons_ne_nil _ _

theorem not_mem_of_mem_applyAll (h : edits.Fit (Line.enumerate number start pieces))
    (hpieces : ∀ piece ∈ pieces, '\n' ∉ piece) :
    ∀ piece ∈ edits.applyAll number pieces, '\n' ∉ piece := by
  induction pieces generalizing number start with
  | nil => nofun
  | cons piece pieces ih =>
    rw [Line.enumerate, Fit, List.forall_mem_cons] at h
    obtain ⟨hpiece, hpieces⟩ := List.forall_mem_cons.mp hpieces
    refine List.forall_mem_cons.mpr ⟨?_, ih h.2 hpieces⟩
    cases hbody : edits number with
    | none => rwa [apply_of_none hbody]
    | some body =>
      have hfits := h.1 body hbody
      obtain ⟨⟨lead, comment, tail, hline⟩, -⟩ := hfits.of_dropEndWhile
      rw [apply_of_some hbody, hline.overwriteComment_eq]
      rw [hline.line_eq] at hpiece
      simp only [List.mem_append, List.mem_cons, not_or] at hpiece ⊢
      refine ⟨hpiece.1, hpiece.2.1, fun hc ↦ ?_, hpiece.2.2.2⟩
      have hend := hfits.ends _ hc
      cases hend

theorem byteLength_endedLines_applyAll (h : edits.Fit (Line.enumerate number start pieces)) :
    byteLength (endedLines (edits.applyAll number pieces)) = byteLength (endedLines pieces) := by
  induction pieces generalizing number start with
  | nil => rfl
  | cons piece pieces ih =>
    rw [Line.enumerate, Fit, List.forall_mem_cons] at h
    have hpiece : byteLength (edits.apply number piece) = byteLength piece := by
      cases hbody : edits number with
      | none => rw [apply_of_none hbody]
      | some body =>
        obtain ⟨-, hlength, -⟩ := (h.1 body hbody).of_dropEndWhile
        rw [apply_of_some hbody, hlength]
    simp [applyAll, hpiece, ih h.2]

theorem applyAll_append (number : Nat) (front back : List (List Char)) :
    edits.applyAll number (front ++ back) =
      edits.applyAll number front ++ edits.applyAll (number + front.length) back := by
  induction front generalizing number with
  | nil => rfl
  | cons piece front ih =>
    have hnumber : number + (piece :: front).length = number + 1 + front.length := by
      rw [List.length_cons]
      omega
    rw [List.cons_append, applyAll, ih, hnumber]
    rfl

end Edits

namespace SourceFile

variable {source : SourceFile} {edits : Edits}

theorem chars_overwrite (source : SourceFile) (edits : Edits) : (source.overwrite edits).chars =
    joinLines (edits.applyAll 1 (splitLines source.chars)) :=
  String.toList_ofList

theorem splitLines_overwrite (h : edits.Fit source.lines) :
    splitLines (source.overwrite edits).chars = edits.applyAll 1 (splitLines source.chars) := by
  have hlines : source.lines = Line.enumerate 1 0 (splitLines source.chars) := source.lines_eq
  have hpieces : ∀ piece ∈ splitLines source.chars, '\n' ∉ piece :=
    fun piece hp hc ↦ not_mem_of_mem_splitAt hp '\n' hc rfl
  have hne : splitLines source.chars ≠ [] := splitAt_ne_nil _ _
  rw [hlines] at h
  rw [chars_overwrite, splitLines_joinLines (Edits.applyAll_ne_nil hne)
    (Edits.not_mem_of_mem_applyAll h hpieces)]

theorem lines_overwrite (h : edits.Fit source.lines) :
    (source.overwrite edits).lines = source.lines.map (Line.overwrite edits) := by
  have hlines : source.lines = Line.enumerate 1 0 (splitLines source.chars) := source.lines_eq
  have hsplit := splitLines_overwrite h
  rw [hlines] at h ⊢
  rw [← Line.enumerate_applyAll h, ← hsplit]
  exact (source.overwrite edits).lines_eq

theorem byteLength_overwrite (h : edits.Fit source.lines) :
    byteLength (source.overwrite edits).chars = byteLength source.chars := by
  have hlines : source.lines = Line.enumerate 1 0 (splitLines source.chars) := source.lines_eq
  have hold := congrArg byteLength (endedLines_splitLines source.chars)
  have hnew := congrArg byteLength (endedLines_splitLines (source.overwrite edits).chars)
  rw [splitLines_overwrite h, Edits.byteLength_endedLines_applyAll (hlines ▸ h), hold] at hnew
  simp only [byteLength_append] at hnew
  omega

theorem any_takeBytes?_congr {lead : List Char} (n : Nat) (x y : List Char) :
    (takeBytes? n (lead ++ '#' :: x)).any allBlank =
      (takeBytes? n (lead ++ '#' :: y)).any allBlank := by
  have hcons (c : Char) (front : Option (List Char)) :
      (front.map (c :: ·)).any allBlank = (isBlank c && front.any allBlank) := by
    cases front <;> simp [allBlank]
  induction lead generalizing n with
  | nil =>
    cases n with
    | zero => rfl
    | succ n =>
      have hsize : ('#' : Char).utf8Size ≤ n + 1 := Nat.succ_le_succ (Nat.zero_le n)
      have hsign : isBlank '#' = false := by decide
      rw [List.nil_append, List.nil_append, takeBytes?, takeBytes?, if_pos hsize, if_pos hsize,
        hcons, hcons, hsign, Bool.false_and, Bool.false_and]
  | cons c lead ih =>
    cases n with
    | zero => rfl
    | succ n =>
      rw [List.cons_append, List.cons_append, takeBytes?, takeBytes?]
      split
      · rw [hcons, hcons, ih]
      · rfl

theorem opensLine_eq_any (source : SourceFile) (offset : Nat) : source.opensLine offset =
    (takeBytes? (offset - (source.lineAt offset).start) (source.lineAt offset).text).any
      allBlank := by
  rw [opensLine]
  cases takeBytes? (offset - (source.lineAt offset).start) (source.lineAt offset).text <;> rfl

theorem lineAt_overwrite (h : edits.Fit source.lines) (offset : Nat) :
    (source.overwrite edits).lineAt offset = source.lineAt offset ∨
      source.lineAt offset ∈ source.lines ∧
        (source.overwrite edits).lineAt offset = (source.lineAt offset).overwrite edits := by
  have hwhile : (source.lines.map (Line.overwrite edits)).takeWhile (·.start ≤ offset) =
      (source.lines.takeWhile (·.start ≤ offset)).map (Line.overwrite edits) :=
    List.takeWhile_map
  rw [lineAt, lineAt, lines_overwrite h, hwhile, List.getLast?_map]
  cases hlast : (source.lines.takeWhile (·.start ≤ offset)).getLast? with
  | none => exact .inl rfl
  | some line =>
    exact .inr ⟨(List.takeWhile_prefix _).subset (List.mem_of_getLast? hlast), rfl⟩

theorem lineOf_overwrite (h : edits.Fit source.lines) (offset : Nat) :
    (source.overwrite edits).lineOf offset = source.lineOf offset := by
  rw [lineOf, lineOf]
  obtain he | ⟨-, he⟩ := lineAt_overwrite h offset
  · rw [he]
  · rw [he]
    rfl

theorem opensLine_overwrite (h : edits.Fit source.lines) (offset : Nat) :
    (source.overwrite edits).opensLine offset = source.opensLine offset := by
  rw [opensLine_eq_any, opensLine_eq_any]
  obtain he | ⟨hline, he⟩ := lineAt_overwrite h offset
  · rw [he]
  · rw [he]
    cases hbody : edits (source.lineAt offset).number with
    | none => rw [Line.overwrite_of_none hbody]
    | some body =>
      obtain ⟨lead, comment, tail, hcomment⟩ := (h _ hline body hbody).exists_isCommentLine
      rw [Line.text_overwrite_of_some hbody, hcomment.overwriteComment_eq, hcomment.line_eq]
      exact any_takeBytes?_congr _ _ _

end SourceFile

end SchemaBindings
