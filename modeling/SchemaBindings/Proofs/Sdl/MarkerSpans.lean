import SchemaBindings.Proofs.Sdl.Markers
import SchemaBindings.Proofs.Source.Positions

namespace SchemaBindings

open Text

namespace SourceFile

def nextStart (f : SourceFile) (offset : Nat) : Nat :=
  match (dropBytes? offset f.chars).bind fun rest ↦ (Text.bytes rest).findIdx? (· == lineFeed) with
  | some i => offset + i + 1
  | none => byteLength f.chars

variable {f : SourceFile} {before after : List Line} {line next : Line}

theorem nextStart_eq (h : f.lines = before ++ line :: next :: after) :
    f.nextStart line.start = next.start := by
  obtain ⟨pre, piece, rest, htext, -, hpiece, hstart, -, hnext⟩ := f.lines_eq_append_cons h
  obtain ⟨tail, rfl, hstop⟩ := hnext next rfl
  have hfeed : (Text.bytes (piece ++ '\n' :: tail)).findIdx? (· == lineFeed) =
      some (byteLength piece) := by
    have hnone : (Text.bytes piece).findIdx? (· == lineFeed) = none := by
      rw [List.findIdx?_eq_none_iff]
      intro b hb
      exact beq_false_of_ne fun he ↦ lineFeed_not_mem_bytes hpiece (he ▸ hb)
    have hlineFeed : String.utf8EncodeChar '\n' = [lineFeed] := by decide
    rw [bytes_append, List.findIdx?_append, hnone, Option.none_or, bytes_cons, hlineFeed,
      List.singleton_append, List.findIdx?_cons, if_pos (beq_self_eq_true _), Option.map_some,
      Text.length_bytes, Nat.zero_add]
  rw [nextStart, htext, hstart, dropBytes?_append, Option.bind_some, hfeed, hstop]
  simp [utf8Size_newline, Nat.add_assoc]

end SourceFile

namespace Sdl

/-- The scan of some lines of a file, and where it takes the next line to start. The starts of the
lines are not looked up but found on the way. -/
def walk (file : Nat) (f : SourceFile) (lines : List Line) : MarkerScan × Nat :=
  lines.foldl (fun s line ↦ (s.1.step { line with start := s.2 }, f.nextStart s.2))
    (⟨file, false, [], []⟩, 0)

def walkMarkers (file : Nat) (f : SourceFile) : Except (List DanglingMarker) (List Marker) :=
  let scan := (walk file f f.lines).1
  if scan.pending.isEmpty then .ok scan.found else .error scan.pending

section Walk

variable {f : SourceFile} {before after : List Line} {line : Line}

theorem walk_concat (file : Nat) (f : SourceFile) (lines : List Line) (last : Line) :
    walk file f (lines ++ [last]) =
      ((walk file f lines).1.step { last with start := (walk file f lines).2 },
        f.nextStart (walk file f lines).2) := by
  rw [walk, List.foldl_append]
  rfl

theorem walk_eq (file : Nat) (h : f.lines = before ++ line :: after) :
    walk file f before = (MarkerScan.afterLines file before, line.start) := by
  induction before using List.reverseRecOn generalizing line after with
  | nil => rw [f.start_of_lines_eq_cons h]; rfl
  | append_singleton before last ih =>
    rw [List.append_assoc, List.singleton_append] at h
    rw [walk_concat, ih h, MarkerScan.afterLines_concat, f.nextStart_eq h]

theorem walkMarkers_eq (file : Nat) (f : SourceFile) : walkMarkers file f = scanMarkers file f := by
  have hscan : (walk file f f.lines).1 = MarkerScan.afterLines file f.lines := by
    obtain hnil | ⟨before, last, hlines⟩ := List.eq_nil_or_concat f.lines
    · rw [hnil]
      rfl
    · rw [List.concat_eq_append] at hlines
      rw [hlines, walk_concat, walk_eq file hlines, MarkerScan.afterLines_concat]
  rw [walkMarkers, hscan]
  rfl

end Walk

/-- The line with a number is a comment that is a marker, and the span holds that comment. -/
def MarksLine (f : SourceFile) (number : Nat) (kind : MarkerKind) (span : Span) : Prop :=
  markerText? (f.lineText number) = some kind ∧
    sliceBytes? span.start span.stop f.chars = some (trimStart (f.lineText number))

namespace MarkerScan

structure Marks (f : SourceFile) (s : MarkerScan) : Prop where
  pending : ∀ d ∈ s.pending, MarksLine f d.line d.kind d.span
  found : ∀ m ∈ s.found, MarksLine f m.commentLine m.kind m.span

variable {f : SourceFile} {s : MarkerScan} {before after : List Line} {line : Line}

theorem Marks.attach (h : s.Marks f) (target : Nat) : (s.attach target).Marks f := by
  refine ⟨nofun, fun m hm ↦ ?_⟩
  rcases List.mem_append.mp hm with hm | hm
  · exact h.found m hm
  · obtain ⟨d, hd, rfl⟩ := List.mem_map.mp hm
    exact h.pending d hd

theorem marksLine_comment (hline : f.lines = before ++ line :: after) {body : List Char}
    (hbody : trimStart line.text = '#' :: body) {kind : MarkerKind}
    (hkind : MarkerKind.ofComment? body = some kind) :
    MarksLine f line.number kind
      ⟨line.start + (byteLength line.text - byteLength ('#' :: body)),
        line.start + byteLength line.text⟩ := by
  obtain ⟨pre, piece, rest, htext, -, -, hstart, hpiece, -⟩ := f.lines_eq_append_cons hline
  obtain ⟨tail, htail, -⟩ := dropEndWhile_append (· == '\r') piece
  have hsplit := takeWhile_append_body hbody
  have hlength := congrArg byteLength hsplit
  rw [byteLength_append] at hlength
  refine ⟨?_, ?_⟩
  · rw [f.lineText_number hline, markerText?, hbody]
    exact hkind
  · have hchars : f.chars =
        (pre ++ line.text.takeWhile isBlank) ++ ('#' :: body) ++ (tail ++ rest) := by
      rw [List.append_assoc pre, ← hsplit, htext, ← htail, ← hpiece]
      simp
    have hslice := sliceBytes?_append (pre ++ line.text.takeWhile isBlank) ('#' :: body)
      (tail ++ rest)
    rw [← hchars, byteLength_append pre] at hslice
    rw [f.lineText_number hline, hbody, hstart, ← hslice]
    dsimp only
    congr 1 <;> omega

theorem Marks.step (h : s.Marks f) (hline : f.lines = before ++ line :: after) :
    (s.step line).Marks f := by
  cases hb : s.inBlockString with
  | true =>
    rw [step_of_inBlockString hb]
    exact ⟨h.pending, h.found⟩
  | false =>
    obtain hblank | ⟨body, hbody⟩ | hcode := blank_or_comment_or_holdsCode line.text
    · rwa [step_of_blank hb hblank]
    · rw [step_of_comment hb hbody, readComment]
      split
      · exact h
      next kind hkind =>
        refine ⟨fun d hd ↦ ?_, h.found⟩
        rcases List.mem_append.mp hd with hd | hd
        · exact h.pending d hd
        · rw [List.mem_singleton.mp hd]
          exact marksLine_comment hline hbody hkind
    · rw [step_of_holdsCode hb hcode]
      have hattach := h.attach line.number
      exact ⟨hattach.pending, hattach.found⟩

theorem marks_afterLines (file : Nat) (h : f.lines = before ++ after) :
    (afterLines file before).Marks f := by
  induction before using List.reverseRecOn generalizing after with
  | nil => exact ⟨nofun, nofun⟩
  | append_singleton before last ih =>
    rw [List.append_assoc, List.singleton_append] at h
    rw [afterLines_concat]
    exact (ih h).step h

end MarkerScan

theorem marksLine_of_scanMarkers_eq_ok {file : Nat} {f : SourceFile} {markers : List Marker}
    (h : scanMarkers file f = .ok markers) :
    ∀ m ∈ markers, MarksLine f m.commentLine m.kind m.span := by
  rw [scanMarkers] at h
  split at h
  · cases h
    exact (MarkerScan.marks_afterLines file (f.lines.append_nil).symm).found
  · cases h

theorem marksLine_of_scanMarkers_eq_error {file : Nat} {f : SourceFile}
    {dangling : List DanglingMarker} (h : scanMarkers file f = .error dangling) :
    ∀ d ∈ dangling, MarksLine f d.line d.kind d.span := by
  rw [scanMarkers] at h
  split at h
  · cases h
  · cases h
    exact (MarkerScan.marks_afterLines file (f.lines.append_nil).symm).pending

/-- The positions in a file, the texts of its lines and its markers agree on where lines start. -/
structure AgreesOnLines (f : SourceFile) : Prop where
  /-- The lines start at the first byte and behind each line feed. -/
  starts_eq : f.lines.map (·.start) = lineStarts f.bytes
  /-- The line of an offset is the one that a search in the table of the starts finds. -/
  lineOf_eq : ∀ offset, f.lineOf offset = lineNumber (lineStarts f.bytes) offset
  /-- The line tells the line feeds before the offset, and the column the bytes before it on its
  line. -/
  lineColumn_eq : ∀ offset, ∃ line column start, f.lineColumn offset = (line, column) ∧
    1 ≤ line ∧ line ≤ f.lines.length ∧ line = (f.bytes.take offset).count lineFeed + 1 ∧
    1 ≤ column ∧ (lineStarts f.bytes)[line - 1]? = some start ∧ start + column - 1 = offset
  lineColumn_strictMono : StrictMono fun offset ↦ toLex (f.lineColumn offset)
  lineColumn_injective : Function.Injective f.lineColumn
  /-- The text of a line stands between two line feeds, with only carriage returns behind it. -/
  lineText_eq : ∀ number, 1 ≤ number → number ≤ f.lines.length →
    ∃ pre piece rest returns, f.IsLine pre piece rest ∧ pre.count '\n' + 1 = number ∧
      piece = f.lineText number ++ List.replicate returns '\r' ∧
      ∀ c ∈ (f.lineText number).getLast?, c ≠ '\r'
  /-- A scan that looks for the starts of the lines itself finds them. -/
  walk_eq : ∀ file before line after, f.lines = before ++ line :: after →
    (walk file f before).2 = line.start
  walkMarkers_eq : ∀ file, walkMarkers file f = scanMarkers file f
  found_marksLine : ∀ file markers, scanMarkers file f = .ok markers →
    ∀ m ∈ markers, MarksLine f m.commentLine m.kind m.span
  dangling_marksLine : ∀ file dangling, scanMarkers file f = .error dangling →
    ∀ d ∈ dangling, MarksLine f d.line d.kind d.span

theorem agreesOnLines (f : SourceFile) : AgreesOnLines f where
  starts_eq := f.map_start_lines
  lineOf_eq := f.lineOf_eq_lineNumber
  lineColumn_eq offset := by
    have hstart := (f.getElem?_lines_lineOf offset).2
    refine ⟨f.lineOf offset, offset - (f.lineAt offset).start + 1, (f.lineAt offset).start, rfl, ?_,
      f.lineOf_le offset, f.lineOf_eq_count offset, Nat.succ_pos _, f.getElem?_lineStarts offset,
      ?_⟩
    · rw [f.lineOf_eq_count]
      exact Nat.succ_pos _
    · omega
  lineColumn_strictMono := f.strictMono_lineColumn
  lineColumn_injective := fun _ _ h ↦ f.strictMono_lineColumn.injective (congrArg toLex h)
  lineText_eq _ := SourceFile.exists_isLine_lineText
  walk_eq file _ _ _ h := congrArg Prod.snd (walk_eq file h)
  walkMarkers_eq file := walkMarkers_eq file f
  found_marksLine _ _ := marksLine_of_scanMarkers_eq_ok
  dangling_marksLine _ _ := marksLine_of_scanMarkers_eq_error

example : (SourceFile.ofText "a.graphql" "é\r\n\n").lineColumn 5 = (3, 1) := by decide +kernel

end Sdl

end SchemaBindings
