import Mathlib.Data.List.Induction
import SchemaBindings.Proofs.Sdl.Boundaries
import SchemaBindings.Proofs.Sdl.Parsing
import SchemaBindings.Sdl.Marker

namespace SchemaBindings.Sdl

open Text SourceFile

def StartsComment (text : List Char) (offset : Nat) : Prop :=
  ∃ pre rest, text = pre ++ '#' :: rest ∧ offset = byteLength pre ∧
    overhang 0 pre ('#' :: rest) = 0

def markerText? (line : List Char) : Option MarkerKind :=
  match trimStart line with
  | '#' :: body => MarkerKind.ofComment? body
  | _ => none

/-- Whether a line consists of a comment that is a marker. -/
def IsMarkerComment (text : List Char) (line : Line) (kind : MarkerKind) : Prop :=
  markerText? line.text = some kind ∧
    StartsComment text (line.start + byteLength (line.text.takeWhile isBlank))

/-- Whether a line holds more than blanks and does not read as a comment. -/
def HoldsCode (line : List Char) : Prop :=
  trimStart line ≠ [] ∧ (trimStart line).head? ≠ some '#'

theorem HoldsCode.markerText?_eq {line : List Char} (h : HoldsCode line) :
    markerText? line = none := by
  unfold markerText?
  split
  next body hline => exact absurd (by rw [hline]; rfl) h.2
  next => rfl

theorem blank_or_comment_or_holdsCode (line : List Char) :
    trimStart line = [] ∨ (∃ body, trimStart line = '#' :: body) ∨ HoldsCode line := by
  cases h : trimStart line with
  | nil => exact Or.inl rfl
  | cons c body =>
    by_cases hc : c = '#'
    · exact Or.inr (Or.inl ⟨body, by rw [hc]⟩)
    · exact Or.inr (Or.inr ⟨by simp [h], by simpa [h] using hc⟩)

namespace MarkerScan

section Step

variable {s : MarkerScan} {line : Line}

theorem step_of_inBlockString (h : s.inBlockString = true) :
    s.step line = { s with inBlockString := !togglesBlockString line.text } := by
  rw [step, if_pos h]

theorem step_of_blank (h : s.inBlockString = false) (hline : trimStart line.text = []) :
    s.step line = s := by
  rw [step, if_neg (by simp [h]), hline]

theorem step_of_comment (h : s.inBlockString = false) {body : List Char}
    (hline : trimStart line.text = '#' :: body) :
    s.step line = s.readComment line ('#' :: body) body := by
  rw [step, if_neg (by simp [h]), hline]
  rfl

theorem step_of_holdsCode (h : s.inBlockString = false) (hline : HoldsCode line.text) :
    s.step line =
      { s.attach line.number with inBlockString := togglesBlockString line.text } := by
  rw [step, if_neg (by simp [h])]
  split
  next he => exact absurd he hline.1
  next body he => exact absurd (by rw [he]; rfl) hline.2
  next => rfl

end Step

def afterLines (file : Nat) (lines : List Line) : MarkerScan :=
  lines.foldl step ⟨file, false, [], []⟩

/-- Whether the scan has found a marker on a line, be its declaration found or still to come. -/
def Recognises (s : MarkerScan) (number : Nat) (kind : MarkerKind) : Prop :=
  (∃ m ∈ s.found, m.commentLine = number ∧ m.kind = kind) ∨
    ∃ m ∈ s.pending, m.line = number ∧ m.kind = kind

theorem recognises_attach (s : MarkerScan) (target number : Nat) (kind : MarkerKind) :
    (s.attach target).Recognises number kind ↔ s.Recognises number kind := by
  simp only [Recognises, attach, List.mem_append, List.mem_map, List.not_mem_nil, false_and,
    exists_false, or_false]
  constructor
  · intro h
    obtain ⟨m, hm | ⟨d, hd, rfl⟩, he⟩ := h
    · exact Or.inl ⟨m, hm, he⟩
    · exact Or.inr ⟨d, hd, he⟩
  · intro h
    rcases h with ⟨m, hm, he⟩ | ⟨d, hd, he⟩
    · exact ⟨m, Or.inl hm, he⟩
    · exact ⟨_, Or.inr ⟨d, hd, rfl⟩, he⟩

theorem recognises_readComment (s : MarkerScan) (line : Line) (comment body : List Char)
    (number : Nat) (kind : MarkerKind) :
    (s.readComment line comment body).Recognises number kind ↔
      s.Recognises number kind ∨
        line.number = number ∧ MarkerKind.ofComment? body = some kind := by
  unfold readComment
  cases hk : MarkerKind.ofComment? body with
  | none => simp
  | some found =>
    simp only [Recognises, List.mem_append, List.mem_singleton, or_and_right, exists_or,
      exists_eq_left, or_assoc, Option.some.injEq]

theorem recognises_step (s : MarkerScan) (line : Line) (number : Nat) (kind : MarkerKind) :
    (s.step line).Recognises number kind ↔
      s.Recognises number kind ∨
        s.inBlockString = false ∧ line.number = number ∧ markerText? line.text = some kind := by
  cases hb : s.inBlockString with
  | true =>
    rw [step_of_inBlockString hb]
    simp [Recognises]
  | false =>
    simp only [true_and]
    obtain hline | ⟨body, hline⟩ | hline := blank_or_comment_or_holdsCode line.text
    · rw [step_of_blank hb hline, markerText?, hline]
      simp
    · rw [step_of_comment hb hline, markerText?, hline]
      exact recognises_readComment s line _ body number kind
    · rw [step_of_holdsCode hb hline, hline.markerText?_eq]
      simp only [reduceCtorEq, and_false, or_false]
      exact recognises_attach s line.number number kind

theorem recognises_of_scanMarkers_eq_ok {file : Nat} {source : SourceFile} {markers : List Marker}
    (h : scanMarkers file source = .ok markers) (number : Nat) (kind : MarkerKind) :
    (afterLines file source.lines).Recognises number kind ↔
      ∃ m ∈ markers, m.commentLine = number ∧ m.kind = kind := by
  change (if (afterLines file source.lines).pending.isEmpty then
    Except.ok (afterLines file source.lines).found else _) = _ at h
  split at h
  next hempty =>
    cases h
    simp [Recognises, List.isEmpty_iff.mp hempty]
  next => cases h

theorem recognises_of_scanMarkers_eq_error {file : Nat} {source : SourceFile}
    {dangling : List DanglingMarker} (h : scanMarkers file source = .error dangling) (number : Nat)
    (kind : MarkerKind) :
    (afterLines file source.lines).Recognises number kind ↔
      (∃ m ∈ (afterLines file source.lines).found, m.commentLine = number ∧ m.kind = kind) ∨
        ∃ m ∈ dangling, m.line = number ∧ m.kind = kind := by
  change (if (afterLines file source.lines).pending.isEmpty then _ else
    Except.error (afterLines file source.lines).pending) = _ at h
  split at h
  next => cases h
  next =>
    cases h
    rfl

theorem afterLines_concat (file : Nat) (lines : List Line) (last : Line) :
    afterLines file (lines ++ [last]) = (afterLines file lines).step last := by
  rw [afterLines, List.foldl_append]
  rfl

theorem recognises_afterLines (file : Nat) (lines : List Line) (number : Nat) (kind : MarkerKind) :
    (afterLines file lines).Recognises number kind ↔
      ∃ before line after, lines = before ++ line :: after ∧
        (afterLines file before).inBlockString = false ∧ line.number = number ∧
          markerText? line.text = some kind := by
  induction lines using List.reverseRecOn with
  | nil => simp [afterLines, Recognises]
  | append_singleton lines last ih =>
    rw [afterLines_concat, recognises_step, ih]
    constructor
    · intro h
      rcases h with ⟨before, line, after, rfl, he⟩ | he
      · exact ⟨before, line, after ++ [last], by simp, he⟩
      · exact ⟨lines, last, [], rfl, he⟩
    · intro h
      obtain ⟨before, line, after, hl, he⟩ := h
      obtain rfl | ⟨after, last', rfl⟩ := List.eq_nil_or_concat after
      · obtain ⟨rfl, hlast⟩ := List.append_inj' hl rfl
        cases hlast
        exact Or.inr he
      · rw [List.concat_eq_append, ← List.cons_append, ← List.append_assoc] at hl
        obtain ⟨rfl, -⟩ := List.append_inj' hl rfl
        exact Or.inl ⟨before, line, after, rfl, he⟩

end MarkerScan

def FindsMarkers (file : Nat) (source : SourceFile) : Prop :=
  ∀ number kind, (MarkerScan.afterLines file source.lines).Recognises number kind ↔
    ∃ line ∈ source.lines, line.number = number ∧ IsMarkerComment source.chars line kind

/-- Whether the scan, after the lines before it, knows if a line starts inside a token. -/
def FlagIsRight (file : Nat) (source : SourceFile) (before : List Line) (line : Line) : Prop :=
  (MarkerScan.afterLines file before).inBlockString = true ↔ InToken source.chars line.start

section Lines

variable {source : SourceFile} {before after : List Line} {line next : Line}

theorem startsComment_append {pre rest : List Char} :
    StartsComment (pre ++ '#' :: rest) (byteLength pre) ↔ overhang 0 pre ('#' :: rest) = 0 := by
  refine ⟨?_, fun h ↦ ⟨pre, rest, rfl, rfl, h⟩⟩
  intro h'
  obtain ⟨pre', rest', htext, hlen, h⟩ := h'
  have hrest : '#' :: rest = '#' :: rest' := by
    have hdrop := dropBytes?_append pre ('#' :: rest)
    rw [htext, hlen, dropBytes?_append] at hdrop
    exact (Option.some.inj hdrop).symm
  rw [← hrest] at htext h
  rwa [List.append_cancel_right htext]

theorem takeWhile_append_body {text body : List Char} (h : trimStart text = '#' :: body) :
    text = text.takeWhile isBlank ++ '#' :: body := by
  rw [← h, trimStart, List.takeWhile_append_dropWhile]

theorem isBlank_of_mem_takeWhile (text : List Char) : ∀ c ∈ text.takeWhile isBlank, isBlank c :=
  fun c hc ↦ List.all_eq_true.mp List.all_takeWhile c hc

/-- A number sign that only blanks precede on its line starts a comment unless the line starts
inside a token. -/
theorem startsComment_iff (h : source.lines = before ++ line :: after) {body : List Char}
    (hline : trimStart line.text = '#' :: body)
    (hfault : ∀ t ∈ tokens source.chars, ¬ t.kind.isFault) :
    StartsComment source.chars (line.start + byteLength (line.text.takeWhile isBlank)) ↔
      ¬ InToken source.chars line.start := by
  obtain ⟨pre, piece, rest, htext, hpre, -, hstart, hpiece, -⟩ := source.lines_eq_append_cons h
  obtain ⟨tail, htail, -⟩ := dropEndWhile_append (· == '\r') piece
  have hsplit := takeWhile_append_body hline
  have hblank := isBlank_of_mem_takeWhile line.text
  generalize line.text.takeWhile isBlank = lead at hsplit hblank ⊢
  have hchars : source.chars = pre ++ (lead ++ '#' :: (body ++ tail ++ rest)) := by
    rw [htext, ← htail, ← hpiece, hsplit]
    simp
  rw [hchars] at hfault ⊢
  rw [hstart, inToken_iff_overhang hpre (by simp) hfault, ← byteLength_append, ← List.append_assoc,
    startsComment_append]
  constructor
  · intro hzero hpos
    have := overhang_blanks_pos hpre hpos hblank hfault
    omega
  · intro hzero
    exact overhang_blanks (by omega) hblank hfault

theorem not_inToken_next_of_blank (h : source.lines = before ++ line :: next :: after)
    (hline : trimStart line.text = []) (hfault : ∀ t ∈ tokens source.chars, ¬ t.kind.isFault)
    (hnot : ¬ InToken source.chars line.start) : ¬ InToken source.chars next.start := by
  obtain ⟨pre, piece, rest, htext, hpre, -, hstart, hpiece, hnext⟩ := source.lines_eq_append_cons h
  obtain ⟨tail, htail, hreturn⟩ := dropEndWhile_append (· == '\r') piece
  obtain ⟨rest, rfl, hposition⟩ := hnext next rfl
  have hblank : ∀ c ∈ piece ++ ['\n'], isBlank c := by
    have htake : line.text.takeWhile isBlank = line.text := by
      rw [trimStart] at hline
      simpa [hline] using List.takeWhile_append_dropWhile (p := isBlank) (l := line.text)
    rw [← htail, ← hpiece]
    intro c hc
    simp only [List.mem_append, List.mem_singleton] at hc
    rcases hc with (hc | hc) | rfl
    · exact isBlank_of_mem_takeWhile _ c (by rwa [htake])
    · rw [beq_iff_eq.mp (hreturn c hc)]
      decide
    · decide
  have hchars : source.chars = pre ++ ((piece ++ ['\n']) ++ rest) := by simp [htext]
  rw [hchars] at hfault hnot ⊢
  rw [hstart, inToken_iff_overhang hpre (by simp) hfault] at hnot
  rw [hposition]
  exact not_inToken_of_blanks (by omega) hblank hfault

theorem not_inToken_next_of_comment (h : source.lines = before ++ line :: next :: after)
    {body : List Char} (hline : trimStart line.text = '#' :: body) (hbody : '\r' ∉ body)
    (hfault : ∀ t ∈ tokens source.chars, ¬ t.kind.isFault)
    (hnot : ¬ InToken source.chars line.start) : ¬ InToken source.chars next.start := by
  obtain ⟨pre, piece, rest, htext, hpre, hpieceLine, hstart, hpiece, hnext⟩ :=
    source.lines_eq_append_cons h
  obtain ⟨tail, htail, hreturn⟩ := dropEndWhile_append (· == '\r') piece
  obtain ⟨rest, rfl, hposition⟩ := hnext next rfl
  have hsplit := takeWhile_append_body hline
  have hlead := isBlank_of_mem_takeWhile line.text
  generalize line.text.takeWhile isBlank = lead at hsplit hlead
  rw [← htail, ← hpiece, hsplit] at htext hpieceLine hposition
  have hchars : source.chars =
      pre ++ (lead ++ ('#' :: (body ++ ((tail ++ ['\n']) ++ rest)))) := by simp [htext]
  have hend : ∀ c ∈ tail ++ ['\n'], c = '\r' ∨ c = '\n' := by
    intro c hc
    rcases List.mem_append.mp hc with hc | hc
    · exact Or.inl (beq_iff_eq.mp (hreturn c hc))
    · exact Or.inr (List.mem_singleton.mp hc)
  have hblank : ∀ c ∈ tail ++ ['\n'], isBlank c := by
    intro c hc
    rcases hend c hc with rfl | rfl <;> decide
  have hcomment : overhang 0 (pre ++ lead) ('#' :: (body ++ ((tail ++ ['\n']) ++ rest))) = 0 := by
    rw [hchars] at hfault hnot
    rw [hstart, inToken_iff_overhang hpre (by simp) hfault] at hnot
    exact overhang_blanks (by omega) hlead hfault
  have hafter : overhang 0 (pre ++ lead ++ '#' :: body) ((tail ++ ['\n']) ++ rest) = 0 := by
    refine overhang_comment hcomment (fun c hc ↦ ?_) (fun c hc ↦ ?_)
    · have hn : c ≠ '\n' := by
        rintro rfl
        exact hpieceLine (by simp [hc])
      have hr : c ≠ '\r' := by
        rintro rfl
        exact hbody hc
      simp [isLineEnd, hn, hr]
    · have hhead : c ∈ (tail ++ ['\n']).head? := by
        cases tail <;> exact hc
      rcases hend c (List.mem_of_mem_head? hhead) with rfl | rfl <;> decide
  have hregroup : source.chars =
      pre ++ lead ++ '#' :: body ++ ((tail ++ ['\n']) ++ rest) := by simp [htext]
  have hstop : next.start = byteLength (pre ++ lead ++ '#' :: body ++ (tail ++ ['\n'])) := by
    rw [hposition]
    simp
  rw [hregroup] at hfault ⊢
  rw [hstop]
  exact not_inToken_of_blanks hafter hblank hfault

theorem isMarkerComment_iff (h : source.lines = before ++ line :: after)
    (hfault : ∀ t ∈ tokens source.chars, ¬ t.kind.isFault) (kind : MarkerKind) :
    IsMarkerComment source.chars line kind ↔
      markerText? line.text = some kind ∧ ¬ InToken source.chars line.start := by
  refine and_congr_right fun hk ↦ ?_
  unfold markerText? at hk
  split at hk
  next body hline => exact startsComment_iff h hline hfault
  next => cases hk

/-- What the scan has to count at a line for its flag to be right at the next one. -/
structure CountedRightly (text : List Char) (line next : Line) : Prop where
  ofCode : InToken text line.start ∨ HoldsCode line.text →
    (togglesBlockString line.text = true ↔
      (InToken text next.start ↔ ¬ InToken text line.start))
  /-- A carriage return ends a comment in the middle of its line. -/
  ofComment : ∀ body, trimStart line.text = '#' :: body → '\r' ∈ body →
    ¬ InToken text line.start → ¬ InToken text next.start

theorem inBlockString_step {s : MarkerScan} (h : source.lines = before ++ line :: next :: after)
    (hfault : ∀ t ∈ tokens source.chars, ¬ t.kind.isFault)
    (hcount : CountedRightly source.chars line next)
    (hs : s.inBlockString = true ↔ InToken source.chars line.start) :
    (s.step line).inBlockString = true ↔ InToken source.chars next.start := by
  cases hb : s.inBlockString with
  | true =>
    have hin := hs.mp hb
    rw [MarkerScan.step_of_inBlockString hb, Bool.not_eq_true', ← Bool.not_eq_true,
      hcount.ofCode (Or.inl hin)]
    tauto
  | false =>
    have hnot : ¬ InToken source.chars line.start := by
      rw [← hs, hb]
      exact Bool.false_ne_true
    obtain hline | ⟨body, hline⟩ | hline := blank_or_comment_or_holdsCode line.text
    · rw [MarkerScan.step_of_blank hb hline, hb]
      exact iff_of_false Bool.false_ne_true (not_inToken_next_of_blank h hline hfault hnot)
    · have hkeep : (s.readComment line ('#' :: body) body).inBlockString = s.inBlockString := by
        unfold MarkerScan.readComment
        split <;> rfl
      rw [MarkerScan.step_of_comment hb hline, hkeep, hb]
      refine iff_of_false Bool.false_ne_true ?_
      by_cases hbody : '\r' ∈ body
      · exact hcount.ofComment body hline hbody hnot
      · exact not_inToken_next_of_comment h hline hbody hfault hnot
    · rw [MarkerScan.step_of_holdsCode hb hline]
      exact (hcount.ofCode (Or.inr hline)).trans (iff_true_right hnot)

theorem flagIsRight_of_countedRightly (file : Nat)
    (hfault : ∀ t ∈ tokens source.chars, ¬ t.kind.isFault)
    (hcount : ∀ before line next after, source.lines = before ++ line :: next :: after →
      CountedRightly source.chars line next)
    (h : source.lines = before ++ line :: after) :
    FlagIsRight file source before line := by
  induction before using List.reverseRecOn generalizing line after with
  | nil =>
    rw [FlagIsRight, start_of_lines_eq_cons h]
    refine iff_of_false Bool.false_ne_true ?_
    intro h'
    obtain ⟨t, -, hstart, -⟩ := h'
    exact Nat.not_lt_zero _ hstart
  | append_singleton before last ih =>
    rw [List.append_assoc, List.singleton_append] at h
    rw [FlagIsRight, MarkerScan.afterLines_concat]
    exact inBlockString_step h hfault (hcount _ _ _ _ h) (ih h)

theorem recognises_number_iff (h : source.lines = before ++ line :: after) (file : Nat)
    {kind : MarkerKind} (hkind : markerText? line.text = some kind) :
    (MarkerScan.afterLines file source.lines).Recognises line.number kind ↔
      (MarkerScan.afterLines file before).inBlockString = false := by
  rw [MarkerScan.recognises_afterLines]
  constructor
  · intro hs
    obtain ⟨before', line', after', h', hflag, hn, -⟩ := hs
    rwa [(split_eq_of_number_eq h h' hn.symm).1]
  · exact fun hflag ↦ ⟨before, line, after, h, hflag, rfl, hkind⟩

theorem exists_isMarkerComment_iff (h : source.lines = before ++ line :: after)
    (hfault : ∀ t ∈ tokens source.chars, ¬ t.kind.isFault) {kind : MarkerKind}
    (hkind : markerText? line.text = some kind) :
    (∃ line' ∈ source.lines, line'.number = line.number ∧
        IsMarkerComment source.chars line' kind) ↔
      ¬ InToken source.chars line.start := by
  constructor
  · intro hs
    obtain ⟨line', hmem, hn, hmark⟩ := hs
    obtain ⟨before', after', h'⟩ := List.append_of_mem hmem
    obtain ⟨-, rfl⟩ := split_eq_of_number_eq h h' hn.symm
    exact ((isMarkerComment_iff h hfault kind).mp hmark).2
  · exact fun hnot ↦ ⟨line, by simp [h], rfl, (isMarkerComment_iff h hfault kind).mpr ⟨hkind, hnot⟩⟩

end Lines

/-- In a text without faults, the scan finds the markers among the comments and no others exactly if
its flag is right at every line that reads as a marker. The flag is right everywhere if the triple
quotes of each line are counted rightly. -/
theorem findsMarkers_iff_flagIsRight (file : Nat) (source : SourceFile)
    (hparse : (Document.parse? source.chars).map (·.diagnostics) = some []) :
    (FindsMarkers file source ↔
      ∀ before line after, source.lines = before ++ line :: after →
        (markerText? line.text).isSome → FlagIsRight file source before line) ∧
    ((∀ before line next after, source.lines = before ++ line :: next :: after →
        CountedRightly source.chars line next) →
      ∀ before line after, source.lines = before ++ line :: after →
        FlagIsRight file source before line) := by
  have hfault := not_isFault_of_parse? hparse
  refine ⟨⟨fun h before line after hl hmarker ↦ ?_, fun h number kind ↦ ?_⟩,
    fun h before line after hl ↦ flagIsRight_of_countedRightly file hfault h hl⟩
  · obtain ⟨kind, hkind⟩ := Option.isSome_iff_exists.mp hmarker
    have hfinds := h line.number kind
    rw [recognises_number_iff hl file hkind, exists_isMarkerComment_iff hl hfault hkind,
      ← Bool.not_eq_true] at hfinds
    exact not_iff_not.mp hfinds
  · have hflag {before after : List Line} {line : Line}
        (hl : source.lines = before ++ line :: after) (hkind : markerText? line.text = some kind) :
        (MarkerScan.afterLines file before).inBlockString = false ↔
          ¬ InToken source.chars line.start := by
      have hright : _ ↔ InToken source.chars line.start :=
        h before line after hl (by simp [hkind])
      rw [← hright, Bool.not_eq_true]
    rw [MarkerScan.recognises_afterLines]
    constructor
    · intro h'
      obtain ⟨before, line, after, hl, hfalse, hn, hkind⟩ := h'
      exact ⟨line, by simp [hl], hn,
        (isMarkerComment_iff hl hfault kind).mpr ⟨hkind, (hflag hl hkind).mp hfalse⟩⟩
    · intro h'
      obtain ⟨line, hmem, hn, hmark⟩ := h'
      obtain ⟨before, after, hl⟩ := List.append_of_mem hmem
      obtain ⟨hkind, hnot⟩ := (isMarkerComment_iff hl hfault kind).mp hmark
      exact ⟨before, line, after, hl, (hflag hl hkind).mpr hnot, hn, hkind⟩

def quotedMarker : SourceFile :=
  .ofText "quoted.graphql"
    ("\"\"\"\n# Future\n\"\"\"\ntype A \x7b a: Int \x7d\n" ++
      "# => Union\ntype B \x7b a: A \x7d\n")

theorem findsMarkers_quotedMarker :
    (Document.parse? quotedMarker.chars).map (·.diagnostics) = some [] ∧
      FindsMarkers 0 quotedMarker := by
  have hparse : (Document.parse? quotedMarker.chars).map (·.diagnostics) = some [] := by
    decide +kernel
  have hright : ∀ i < 7, ∀ line ∈ quotedMarker.lines[i]?, (markerText? line.text).isSome →
      ((MarkerScan.afterLines 0 (quotedMarker.lines.take i)).inBlockString = true ↔
        InToken quotedMarker.chars line.start) := by
    decide +kernel
  have hlines : quotedMarker.lines.length = 7 := by decide +kernel
  refine ⟨hparse, (findsMarkers_iff_flagIsRight 0 quotedMarker hparse).1.mpr ?_⟩
  intro before line after hl hmarker
  have hlength : before.length < 7 := by
    rw [← hlines, hl, List.length_append, List.length_cons]
    omega
  have h := hright before.length hlength line (by simp [hl]) hmarker
  rwa [hl, List.take_left] at h

/-- A marker after a block string that holds a number sign. -/
def missedMarker : SourceFile :=
  .ofText "missed.graphql"
    "\"\"\"Issue #12\"\"\"\ntype A \x7b a: Int \x7d\n# Future\ntype B \x7b b: Int \x7d\n"

/-- The number sign in the block string hides the quotes that close it, so the scan takes the rest
of the file for a part of it. -/
theorem not_findsMarkers_missedMarker :
    (Document.parse? missedMarker.chars).map (·.diagnostics) = some [] ∧
      scanMarkers 0 missedMarker = .ok [] ∧ ¬ FindsMarkers 0 missedMarker := by
  have hscan : scanMarkers 0 missedMarker = .ok [] := by decide +kernel
  have hmark : ⟨3, 34, "# Future".toList⟩ ∈ missedMarker.lines ∧
      IsMarkerComment missedMarker.chars ⟨3, 34, "# Future".toList⟩ .future := by
    refine ⟨by decide +kernel, by decide +kernel, ?_⟩
    exact ⟨missedMarker.chars.take 34, missedMarker.chars.drop 35, by decide +kernel,
      by decide +kernel, by decide +kernel⟩
  refine ⟨by decide +kernel, hscan, fun h ↦ ?_⟩
  obtain ⟨m, hm, -⟩ := (MarkerScan.recognises_of_scanMarkers_eq_ok hscan 3 .future).mp
    ((h 3 .future).mpr ⟨_, hmark.1, rfl, hmark.2⟩)
  cases hm

end SchemaBindings.Sdl
