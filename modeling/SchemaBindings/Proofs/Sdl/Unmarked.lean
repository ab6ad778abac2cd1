import SchemaBindings.Proofs.Sdl.Markers
import SchemaBindings.Proofs.Source.Appending

namespace SchemaBindings.Sdl

open Text

def Unmarked (text : List Char) : Prop :=
  ∀ piece ∈ splitLines text, markerText? (dropEndWhile (· == '\r') piece) = none

instance (text : List Char) : Decidable (Unmarked text) :=
  inferInstanceAs (Decidable (∀ piece ∈ _, _))

theorem unmarked_nil : Unmarked [] := by
  decide

theorem unmarked_append_iff (text rest : List Char) :
    Unmarked (text ++ '\n' :: rest) ↔ Unmarked text ∧ Unmarked rest := by
  rw [Unmarked, splitLines_append]
  exact List.forall_mem_append

namespace MarkerScan

variable {s : MarkerScan}

/-- As long as no marker waits for its declaration, a line that is none changes nothing but what the
scan takes for the inside of a block string. -/
theorem step_of_unmarked (hs : s.pending = []) {line : Line} (h : markerText? line.text = none) :
    (s.step line).pending = [] ∧ (s.step line).found = s.found := by
  cases hb : s.inBlockString with
  | true =>
    rw [step_of_inBlockString hb]
    exact ⟨hs, rfl⟩
  | false =>
    obtain hline | ⟨body, hline⟩ | hline := blank_or_comment_or_holdsCode line.text
    · rw [step_of_blank hb hline]
      exact ⟨hs, rfl⟩
    · rw [markerText?, hline] at h
      rw [step_of_comment hb hline, readComment]
      simp only at h
      rw [h]
      exact ⟨hs, rfl⟩
    · rw [step_of_holdsCode hb hline]
      simp [attach, hs]

theorem foldl_of_unmarked (hs : s.pending = []) {lines : List Line}
    (h : ∀ line ∈ lines, markerText? line.text = none) :
    (lines.foldl step s).pending = [] ∧ (lines.foldl step s).found = s.found := by
  induction lines generalizing s with
  | nil => exact ⟨hs, rfl⟩
  | cons line lines ih =>
    obtain ⟨hline, hlines⟩ := List.forall_mem_cons.mp h
    obtain ⟨hpending, hfound⟩ := step_of_unmarked hs hline
    obtain ⟨hpending', hfound'⟩ := ih hpending hlines
    exact ⟨hpending', hfound'.trans hfound⟩

end MarkerScan

theorem exists_piece_of_mem_enumerate {number start : Nat} {pieces : List (List Char)} {line : Line}
    (h : line ∈ Line.enumerate number start pieces) :
    ∃ piece ∈ pieces, line.text = dropEndWhile (· == '\r') piece := by
  obtain ⟨before, after, hlines⟩ := List.append_of_mem h
  obtain ⟨front, piece, back, rfl, rfl, -⟩ := Line.enumerate_eq_append_cons hlines
  exact ⟨piece, by simp, rfl⟩

theorem Unmarked.markerText?_eq {text : List Char} (h : Unmarked text) {number start : Nat} :
    ∀ line ∈ Line.enumerate number start (splitLines text), markerText? line.text = none := by
  intro line hline
  obtain ⟨piece, hpiece, he⟩ := exists_piece_of_mem_enumerate hline
  rw [he]
  exact h piece hpiece

theorem scanMarkers_of_unmarked (file : Nat) {source : SourceFile} (h : Unmarked source.chars) :
    scanMarkers file source = .ok [] := by
  have hempty : (⟨file, false, [], []⟩ : MarkerScan).pending = [] := rfl
  have hlines : source.lines = Line.enumerate 1 0 (splitLines source.chars) := source.lines_eq
  obtain ⟨hpending, hfound⟩ := MarkerScan.foldl_of_unmarked hempty (h.markerText?_eq)
  rw [← hlines] at hpending hfound
  rw [scanMarkers]
  simp [hpending, hfound]

theorem scanMarkers_append {file : Nat} {source : SourceFile} {markers : List Marker}
    (h : scanMarkers file source = .ok markers) {text : String} (ht : Unmarked text.toList) :
    scanMarkers file (source.append text) = .ok markers := by
  rw [scanMarkers] at h ⊢
  split at h
  next hempty =>
    cases h
    have hlines : ∀ line ∈ source.appendedLines text, markerText? line.text = none :=
      ht.markerText?_eq
    obtain ⟨hpending, hfound⟩ :=
      MarkerScan.foldl_of_unmarked (List.isEmpty_iff.mp hempty) hlines
    rw [SourceFile.lines_append, List.foldl_append]
    simp [hpending, hfound]
  next => cases h

end SchemaBindings.Sdl
