import SchemaBindings.Proofs.Sdl.Comments
import SchemaBindings.Proofs.Sdl.Markers
import SchemaBindings.Proofs.Source.Overwriting

namespace SchemaBindings

open Text Sdl

/-- Whether the edits overwrite comments that are markers of a kind, by comments that are none. -/
structure SourceFile.Unmarks (source : SourceFile) (kind : MarkerKind) (edits : Edits) : Prop where
  fit : edits.Fit source.lines
  marker : ∀ line ∈ source.lines, (edits line.number).isSome →
    IsMarkerComment source.chars line kind
  unmarked : ∀ line ∈ source.lines, (edits line.number).isSome →
    markerText? (line.overwrite edits).text = none

namespace Sdl

variable {source : SourceFile} {edits : Edits} {kind : MarkerKind}

theorem unmarks_iff (hfault : ∀ t ∈ tokens source.chars, ¬ t.kind.isFault) :
    source.Unmarks kind edits ↔ ∀ line ∈ source.lines, ∀ body ∈ edits line.number,
      FitsComment body line.text ∧ markerText? line.text = some kind ∧
        ¬ InToken source.chars line.start ∧
          markerText? (overwriteComment body line.text) = none := by
  constructor
  · intro h line hline body hbody
    have hsome : (edits line.number).isSome := Option.isSome_of_mem hbody
    obtain ⟨before, after, hlines⟩ := List.append_of_mem hline
    have hmarker := (isMarkerComment_iff hlines hfault kind).mp (h.marker line hline hsome)
    have hnone := h.unmarked line hline hsome
    rw [Line.text_overwrite_of_some hbody] at hnone
    exact ⟨h.fit line hline body hbody, hmarker.1, hmarker.2, hnone⟩
  · intro h
    refine ⟨fun line hline body hbody ↦ (h line hline body hbody).1, fun line hline hsome ↦ ?_,
      fun line hline hsome ↦ ?_⟩
    · obtain ⟨body, hbody⟩ := Option.isSome_iff_exists.mp hsome
      obtain ⟨-, hmarker, hnot, -⟩ := h line hline body hbody
      obtain ⟨before, after, hlines⟩ := List.append_of_mem hline
      exact (isMarkerComment_iff hlines hfault kind).mpr ⟨hmarker, hnot⟩
    · obtain ⟨body, hbody⟩ := Option.isSome_iff_exists.mp hsome
      obtain ⟨-, -, -, hnone⟩ := h line hline body hbody
      rwa [Line.text_overwrite_of_some hbody]

theorem exists_joinLines_cons (back : List (List Char)) :
    ∃ rest, (∀ c ∈ rest.head?, c = '\n') ∧ ∀ piece, joinLines (piece :: back) = piece ++ rest := by
  cases back with
  | nil => exact ⟨[], nofun, fun piece ↦ by rw [joinLines, List.intercalate_singleton,
      List.append_nil]⟩
  | cons second back =>
    exact ⟨'\n' :: joinLines (second :: back), by simp, fun piece ↦ joinLines_cons_cons _ _ _⟩

theorem tokens_overwriteComment {pre piece rest body lead comment tail : List Char}
    (hpre : EndsLine pre) (hpiece : IsCommentLine piece lead comment tail)
    (hrest : ∀ c ∈ rest.head?, c = '\n') (hbody : ∀ c ∈ body, isLineEnd c = false)
    (hlength : byteLength (overwriteComment body piece) = byteLength piece)
    (hfault : ∀ t ∈ tokens (pre ++ (piece ++ rest)), ¬ t.kind.isFault)
    (hnot : ¬ InToken (pre ++ (piece ++ rest)) (byteLength pre)) :
    tokens (pre ++ (overwriteComment body piece ++ rest)) = tokens (pre ++ (piece ++ rest)) := by
  rw [hpiece.overwriteComment_eq] at hlength ⊢
  obtain ⟨rfl, hlead, hcomment, htail⟩ := hpiece
  have hgroup (text : List Char) : lead ++ '#' :: (text ++ tail) ++ rest =
      lead ++ '#' :: (text ++ (tail ++ rest)) := by simp
  rw [hgroup] at hfault hnot
  rw [hgroup, hgroup]
  rw [inToken_iff_overhang hpre (by simp) hfault] at hnot
  have hstart := overhang_blanks (Nat.eq_zero_of_not_pos hnot) hlead hfault
  have hend : ∀ c ∈ (tail ++ rest).head?, isLineEnd c := by
    cases tail with
    | nil =>
      intro c hc
      rw [hrest c hc]
      rfl
    | cons => exact htail
  have hsame : byteLength body = byteLength comment := by
    simp only [byteLength_append, byteLength_cons] at hlength
    omega
  rw [← List.append_assoc pre lead, ← List.append_assoc pre lead]
  exact tokens_eq_of_comment hstart hcomment hbody hend hsame

theorem exists_lines_eq_of_splitLines {front back : List (List Char)} {piece : List Char}
    (h : splitLines source.chars = front ++ piece :: back) :
    ∃ after, source.lines = Line.enumerate 1 0 front ++
      ⟨1 + front.length, byteLength (endedLines front), dropEndWhile (· == '\r') piece⟩ ::
        after := by
  refine ⟨Line.enumerate (1 + front.length + 1)
    (0 + byteLength (endedLines front) + byteLength piece + 1) back, ?_⟩
  rw [source.lines_eq, Line.ofText, ← SourceFile.chars, h, Line.enumerate_append, Line.enumerate,
    Nat.zero_add]

theorem tokens_applyAll (h : source.Unmarks kind edits)
    (hfault : ∀ t ∈ tokens source.chars, ¬ t.kind.isFault) {front back : List (List Char)}
    (hpieces : splitLines source.chars = front ++ back) :
    tokens (joinLines (edits.applyAll 1 front ++ back)) = tokens source.chars := by
  -- The lines are overwritten one after the other, so that those behind are still as they were.
  induction front using List.reverseRecOn generalizing back with
  | nil => rw [Edits.applyAll, List.nil_append, ← joinLines_splitLines source.chars, hpieces]; rfl
  | append_singleton front piece ih =>
    rw [List.append_assoc, List.singleton_append] at hpieces
    have htokens := ih hpieces
    have happly : edits.applyAll (1 + front.length) [piece] =
        [edits.apply (1 + front.length) piece] := rfl
    rw [Edits.applyAll_append, List.append_assoc, happly, List.singleton_append]
    cases hbody : edits (1 + front.length) with
    | none => rwa [Edits.apply_of_none hbody]
    | some body =>
      rw [Edits.apply_of_some hbody]
      obtain ⟨after, hlines⟩ := exists_lines_eq_of_splitLines hpieces
      have hmem : ⟨1 + front.length, byteLength (endedLines front),
          dropEndWhile (· == '\r') piece⟩ ∈ source.lines := by
        rw [hlines]
        exact List.mem_append_right _ List.mem_cons_self
      have hfits := h.fit _ hmem body hbody
      obtain ⟨⟨lead, comment, tail, hpiece⟩, hlength, -⟩ := hfits.of_dropEndWhile
      have hnot := ((isMarkerComment_iff hlines hfault kind).mp
        (h.marker _ hmem (by rw [hbody]; rfl))).2
      have hfront : edits.Fit (Line.enumerate 1 0 front) :=
        fun line hline ↦ h.fit line (hlines ▸ List.mem_append_left _ hline)
      obtain ⟨rest, hrest, hjoin⟩ := exists_joinLines_cons back
      rw [joinLines_append_cons, hjoin] at htokens ⊢
      have hnot' : ¬ InToken (endedLines (edits.applyAll 1 front) ++ (piece ++ rest))
          (byteLength (endedLines (edits.applyAll 1 front))) := by
        rwa [InToken, htokens, Edits.byteLength_endedLines_applyAll hfront]
      rw [← htokens] at hfault
      rw [← htokens]
      exact tokens_overwriteComment (endsLine_endedLines _) hpiece hrest hfits.ends hlength hfault
        hnot'

theorem tokens_overwrite (h : source.Unmarks kind edits)
    (hfault : ∀ t ∈ tokens source.chars, ¬ t.kind.isFault) :
    tokens (source.overwrite edits).chars = tokens source.chars := by
  have htokens := tokens_applyAll h hfault (List.append_nil (splitLines source.chars)).symm
  rwa [List.append_nil, ← SourceFile.chars_overwrite] at htokens

theorem parse?_overwrite (h : source.Unmarks kind edits)
    (hparse : (Document.parse? source.chars).map (·.diagnostics) = some []) :
    Document.parse? (source.overwrite edits).chars = Document.parse? source.chars := by
  have htokens := tokens_overwrite h (not_isFault_of_parse? hparse)
  have hescape : endsInEscape (source.overwrite edits).chars = endsInEscape source.chars := by
    rw [endsInEscape, endsInEscape, htokens]
  have hend : endOffset (source.overwrite edits).chars = endOffset source.chars := by
    rw [endOffset, endOffset, hescape, SourceFile.byteLength_overwrite h.fit]
  rw [Document.parse?, Document.parse?, htokens, hescape, hend]

def MarkerScan.without (s : MarkerScan) (edits : Edits) : MarkerScan :=
  { s with
    pending := s.pending.filter fun m ↦ (edits m.line).isNone
    found := s.found.filter fun m ↦ (edits m.commentLine).isNone }

namespace MarkerScan

variable {s : MarkerScan} {line : Line}

theorem step_without_of_none (h : edits line.number = none) :
    (s.without edits).step line = (s.step line).without edits := by
  cases hb : s.inBlockString with
  | true =>
    rw [step_of_inBlockString hb, step_of_inBlockString (s := s.without edits) hb]
    rfl
  | false =>
    obtain hline | ⟨body, hline⟩ | hline := blank_or_comment_or_holdsCode line.text
    · rw [step_of_blank hb hline, step_of_blank (s := s.without edits) hb hline]
    · rw [step_of_comment hb hline, step_of_comment (s := s.without edits) hb hline, readComment,
        readComment]
      cases MarkerKind.ofComment? body with
      | none => rfl
      | some kind => simp [without, h]
    · rw [step_of_holdsCode hb hline, step_of_holdsCode (s := s.without edits) hb hline]
      simp only [without, attach, List.filter_append, List.filter_map]
      rfl

theorem step_without_of_some {body : List Char} (hbody : edits line.number = some body)
    (hfits : FitsComment body line.text) (hold : (markerText? line.text).isSome)
    (hnew : markerText? (line.overwrite edits).text = none)
    (hflag : s.inBlockString = true →
      togglesBlockString (line.overwrite edits).text = togglesBlockString line.text) :
    (s.without edits).step (line.overwrite edits) = (s.step line).without edits := by
  have htext := Line.text_overwrite_of_some hbody
  cases hb : s.inBlockString with
  | true =>
    rw [step_of_inBlockString hb, step_of_inBlockString (s := s.without edits) hb, hflag hb]
    rfl
  | false =>
    obtain ⟨lead, comment, tail, hcomment⟩ := hfits.exists_isCommentLine
    have hline := hcomment.trimStart_eq
    have hline' := (hcomment.overwriteComment hfits.ends).trimStart_eq
    rw [← htext] at hline'
    rw [step_of_comment hb hline, step_of_comment (s := s.without edits) hb hline', readComment,
      readComment]
    rw [markerText?, hline] at hold
    rw [markerText?, hline'] at hnew
    obtain ⟨kind, hkind⟩ := Option.isSome_iff_exists.mp hold
    simp only at hkind hnew
    rw [hkind, hnew]
    simp [without, hbody]

end MarkerScan

/-- Whether the scan counts the quotes of every new comment like those of the old one where it takes
the comment for a part of a block string. -/
def KeepsFlag (file : Nat) (source : SourceFile) (edits : Edits) : Prop :=
  ∀ before line after, source.lines = before ++ line :: after → (edits line.number).isSome →
    (MarkerScan.afterLines file before).inBlockString = true →
      togglesBlockString (line.overwrite edits).text = togglesBlockString line.text

theorem exists_line_of_mem {file : Nat} {markers : List Marker}
    (hscan : scanMarkers file source = .ok markers) {m : Marker} (hm : m ∈ markers) :
    ∃ before line after, source.lines = before ++ line :: after ∧
      (MarkerScan.afterLines file before).inBlockString = false ∧ line.number = m.commentLine ∧
        markerText? line.text = some m.kind := by
  have hrecognises := MarkerScan.recognises_of_scanMarkers_eq_ok hscan m.commentLine m.kind
  exact (MarkerScan.recognises_afterLines _ _ _ _).mp (hrecognises.mpr ⟨m, hm, rfl, rfl⟩)

theorem keepsFlag_of_found {file : Nat} {markers : List Marker}
    (hscan : scanMarkers file source = .ok markers)
    (hfound : ∀ line ∈ source.lines, (edits line.number).isSome →
      ∃ m ∈ markers, m.commentLine = line.number) : KeepsFlag file source edits := by
  intro before line after hlines hsome hflag
  obtain ⟨m, hm, hnumber⟩ := hfound line (by simp [hlines]) hsome
  obtain ⟨before', line', after', hlines', hflag', hnumber', -⟩ := exists_line_of_mem hscan hm
  obtain ⟨rfl, -⟩ :=
    SourceFile.split_eq_of_number_eq hlines hlines' (hnumber.symm.trans hnumber'.symm)
  rw [hflag'] at hflag
  cases hflag

theorem afterLines_overwrite {file : Nat} (h : source.Unmarks kind edits)
    (hflag : KeepsFlag file source edits) {before after : List Line}
    (hlines : source.lines = before ++ after) :
    MarkerScan.afterLines file (before.map (Line.overwrite edits)) =
      (MarkerScan.afterLines file before).without edits := by
  induction before using List.reverseRecOn generalizing after with
  | nil => rfl
  | append_singleton before line ih =>
    rw [List.append_assoc, List.singleton_append] at hlines
    have hmem : line ∈ source.lines := by simp [hlines]
    rw [List.map_append, List.map_singleton, MarkerScan.afterLines_concat, ih hlines,
      MarkerScan.afterLines_concat]
    cases hbody : edits line.number with
    | none =>
      rw [Line.overwrite_of_none hbody, MarkerScan.step_without_of_none hbody]
    | some body =>
      have hsome : (edits line.number).isSome := by rw [hbody]; rfl
      have hold : (markerText? line.text).isSome := by rw [(h.marker line hmem hsome).1]; rfl
      exact MarkerScan.step_without_of_some hbody (h.fit line hmem body hbody) hold
        (h.unmarked line hmem hsome) (hflag before line after hlines hsome)

theorem scanMarkers_overwrite {file : Nat} {markers : List Marker} (h : source.Unmarks kind edits)
    (hflag : KeepsFlag file source edits) (hscan : scanMarkers file source = .ok markers) :
    scanMarkers file (source.overwrite edits) =
      .ok (markers.filter fun m ↦ (edits m.commentLine).isNone) := by
  have hlines := SourceFile.lines_overwrite h.fit
  have hafter := afterLines_overwrite h hflag (List.append_nil source.lines).symm
  have hunfold (source : SourceFile) : scanMarkers file source =
      if (MarkerScan.afterLines file source.lines).pending.isEmpty then
        .ok (MarkerScan.afterLines file source.lines).found
      else .error (MarkerScan.afterLines file source.lines).pending := rfl
  rw [hunfold] at hscan ⊢
  rw [hlines, hafter]
  split at hscan
  next hempty =>
    cases hscan
    simp [MarkerScan.without, List.isEmpty_iff.mp hempty]
  next => cases hscan

theorem kind_of_overwritten {file : Nat} {markers : List Marker} (h : source.Unmarks kind edits)
    (hscan : scanMarkers file source = .ok markers) {m : Marker} (hm : m ∈ markers)
    (hsome : (edits m.commentLine).isSome) : m.kind = kind := by
  obtain ⟨before, line, after, hlines, -, hnumber, htext⟩ := exists_line_of_mem hscan hm
  have hmem : line ∈ source.lines := by simp [hlines]
  rw [← hnumber] at hsome
  rw [(h.marker line hmem hsome).1] at htext
  exact (Option.some.inj htext).symm

end Sdl

end SchemaBindings
