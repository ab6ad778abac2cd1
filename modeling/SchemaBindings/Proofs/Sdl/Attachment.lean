import SchemaBindings.Proofs.Sdl.Markers

namespace SchemaBindings.Sdl

open Text

namespace MarkerScan

/-- The markers found so far concern lines after their own, and those without a line yet stand
before the line called `next`. -/
structure Attached (file next : Nat) (s : MarkerScan) : Prop where
  file_eq : s.file = file
  pending_lt : ∀ d ∈ s.pending, d.line < next
  found_file : ∀ m ∈ s.found, m.file = file
  found_lt : ∀ m ∈ s.found, m.commentLine < m.targetLine

variable {s : MarkerScan} {file next : Nat}

theorem Attached.succ (h : s.Attached file next) : s.Attached file (next + 1) :=
  ⟨h.file_eq, fun d hd ↦ Nat.lt_succ_of_lt (h.pending_lt d hd), h.found_file, h.found_lt⟩

theorem Attached.readComment {line : Line} (h : s.Attached file line.number)
    (comment body : List Char) :
    (s.readComment line comment body).Attached file (line.number + 1) := by
  unfold MarkerScan.readComment
  split
  · exact h.succ
  · refine ⟨h.file_eq, ?_, h.found_file, h.found_lt⟩
    intro d hd
    rcases List.mem_append.mp hd with hd | hd
    · exact h.succ.pending_lt d hd
    · rw [List.mem_singleton.mp hd]
      exact Nat.lt_succ_self _

theorem Attached.attach (h : s.Attached file next) : (s.attach next).Attached file (next + 1) := by
  have hfound : ∀ m ∈ (s.attach next).found, m ∈ s.found ∨
      ∃ d ∈ s.pending, ⟨d.kind, s.file, d.line, next, d.span⟩ = m :=
    fun m hm ↦ (List.mem_append.mp hm).imp_right List.mem_map.mp
  refine ⟨h.file_eq, nofun, fun m hm ↦ ?_, fun m hm ↦ ?_⟩
  · obtain hm | ⟨d, -, rfl⟩ := hfound m hm
    · exact h.found_file m hm
    · exact h.file_eq
  · obtain hm | ⟨d, hd, rfl⟩ := hfound m hm
    · exact h.found_lt m hm
    · exact h.pending_lt d hd

theorem Attached.step (line : Line) (h : s.Attached file line.number) :
    (s.step line).Attached file (line.number + 1) := by
  cases hb : s.inBlockString with
  | true =>
    rw [step_of_inBlockString hb]
    exact ⟨h.file_eq, h.succ.pending_lt, h.found_file, h.found_lt⟩
  | false =>
    obtain hline | ⟨body, hline⟩ | hline := blank_or_comment_or_holdsCode line.text
    · rw [step_of_blank hb hline]
      exact h.succ
    · rw [step_of_comment hb hline]
      exact h.readComment _ _
    · rw [step_of_holdsCode hb hline]
      have hnext := h.attach
      exact ⟨hnext.file_eq, hnext.pending_lt, hnext.found_file, hnext.found_lt⟩

theorem Attached.foldl (start : Nat) (pieces : List (List Char)) (h : s.Attached file next) :
    ((Line.enumerate next start pieces).foldl MarkerScan.step s).Attached file
      (next + pieces.length) := by
  induction pieces generalizing s next start with
  | nil => exact h
  | cons piece pieces ih =>
    rw [Line.enumerate, List.foldl_cons, List.length_cons]
    have hstep := Attached.step ⟨next, start, dropEndWhile (· == '\r') piece⟩ h
    have hrest := ih (start + byteLength piece + 1) hstep
    rwa [Nat.add_assoc, Nat.add_comm 1] at hrest

end MarkerScan

theorem commentLine_lt_of_scanMarkers {file : Nat} {source : SourceFile} {markers : List Marker}
    (h : scanMarkers file source = .ok markers) {m : Marker} (hm : m ∈ markers) :
    m.file = file ∧ m.commentLine < m.targetLine := by
  have hempty : (⟨file, false, [], []⟩ : MarkerScan).Attached file 1 := ⟨rfl, nofun, nofun, nofun⟩
  have hscan := hempty.foldl 0 (splitLines source.text.toList)
  rw [← Line.ofText, ← source.lines_eq] at hscan
  rw [scanMarkers] at h
  split at h
  next =>
    cases h
    exact ⟨hscan.found_file m hm, hscan.found_lt m hm⟩
  next => cases h

end SchemaBindings.Sdl
