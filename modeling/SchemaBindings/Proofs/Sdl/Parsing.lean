import SchemaBindings.Proofs.Sdl.Documents
import SchemaBindings.Proofs.Sdl.Tokens

namespace SchemaBindings.Sdl

open Cursor Sentence Grammar SchemaBindings.Sdl.Parser

variable {α : Type}

theorem length_progress_lt (p : Parser α) {c : Cursor} (h : c.atEnd = false) :
    (p.progress.run c).2.upcoming.length < c.upcoming.length := by
  have hle := (p.forward c).length_le
  change (Prod.snd ((if (p.run c).2.upcoming.length = c.upcoming.length then
    advance >>= fun _ ↦ pure (p.run c).1 else pure (p.run c).1).run (p.run c).2)).upcoming.length < _
  split
  next he =>
    have hend : (p.run c).2.atEnd = false := by
      cases hu : (p.run c).2.upcoming with
      | nil =>
        rw [hu] at he
        have hnil := List.length_eq_zero_iff.mp he.symm
        simp [atEnd, hnil] at h
      | cons t ts => simp [atEnd, hu]
    exact he ▸ length_upcoming_advance_lt hend
  next he => exact Nat.lt_of_le_of_ne hle he

theorem upcoming_many (p : Parser α) (c : Cursor) :
    ((many (fun _ ↦ true) p).run c).2.upcoming = [] := by
  have hmain (n : Nat) : ∀ d : Cursor, d.upcoming.length < n →
      ((collectUpTo (do
        if (← look Cursor.atEnd) || !(fun _ ↦ true) (← Parser.kind) then return none
        else return some (← p.progress)) n).run d).2.upcoming = [] := by
    induction n with
    | zero => exact fun d hd ↦ absurd hd (Nat.not_lt_zero _)
    | succ n ih =>
      intro d hd
      rw [collectUpTo]
      cases hend : d.atEnd with
      | true =>
        simp only [bind, pure, look, Parser.kind, hend, Bool.true_or, if_true]
        exact List.isEmpty_iff.mp hend
      | false =>
        simp only [bind, pure, look, Parser.kind, hend, Bool.not_true, Bool.or_self,
          Bool.false_eq_true, if_false]
        exact ih _ (by have := length_progress_lt p hend; omega)
  exact hmain (c.upcoming.length + 1) c (Nat.lt_succ_self _)

theorem upcoming_document (c : Cursor) : (document.run c).2.upcoming = [] :=
  upcoming_many definitionOrSkip c

theorem reads_document (d : Document) (c c' : Cursor) :
    document.Reads c d c' ↔ ∃ ds, (many (fun _ ↦ true) definitionOrSkip).Reads c ds c' ∧
      d = ⟨ds.filterMap id, ⟨c.span.start, c'.span.stop⟩⟩ := by
  simp only [document, reads_offset_bind]
  constructor
  · intro h
    obtain ⟨ds, c₁, hds, h⟩ := (reads_bind _ _ _).mp h
    obtain ⟨-, rfl, rfl⟩ := (reads_pure _ _).mp ((reads_look_bind _ (fun stop ↦
      (pure ⟨ds.filterMap id, ⟨c.span.start, stop⟩⟩ : Parser Document)) _).mp h)
    exact ⟨ds, hds, rfl⟩
  · intro h'
    obtain ⟨ds, hds, rfl⟩ := h'
    refine (reads_bind _ _ _).mpr ⟨ds, c', hds, ?_⟩
    exact (reads_look_bind _ (fun stop ↦
      (pure ⟨ds.filterMap id, ⟨c.span.start, stop⟩⟩ : Parser Document)) _).mpr
        ((reads_pure _ _).mpr ⟨hds.ready_after, rfl, rfl⟩)

theorem faultCount_start (ts : List Token) (stop : Nat) :
    (Cursor.start ts stop).faultCount = ts.countP (·.kind.isFault) := by
  rw [Cursor.start, faultCount_skipFaults]
  exact Nat.zero_add _

theorem start_eq {ts : List Token} (h : ∀ t ∈ ts, ¬ t.kind.isFault) (stop : Nat) :
    Cursor.start ts stop = ⟨ts, stop, 0, #[]⟩ := by
  cases ts with
  | nil => rfl
  | cons t ts => simp [Cursor.start, skipFaults, h t (by simp)]

theorem passed_start {ts : List Token} (hord : InOrder ts) (h : ∀ t ∈ ts, ¬ t.kind.isFault)
    (stop : Nat) : (Cursor.start ts stop).Ready ∧ Passed (.start ts stop) ts
      ⟨[], stop, (ts.getLast?.map (·.span.stop)).getD 0, #[]⟩ := by
  have hcount := faultCount_start ts stop
  rw [List.countP_eq_zero.mpr h, start_eq h] at hcount
  rw [start_eq h]
  exact ⟨⟨hord, hcount⟩, by simp, rfl, rfl, rfl⟩

theorem covered_end (ts : List Token) (stop : Nat) :
    covered (ts ++ [⟨.endOfInput, .empty stop, []⟩]) =
      ⟨(⟨ts, stop, 0, #[]⟩ : Cursor).span.start, stop⟩ := by
  have hlast : (ts ++ [(⟨.endOfInput, .empty stop, []⟩ : Token)]).getLast? =
      some ⟨.endOfInput, .empty stop, []⟩ := List.getLast?_concat
  simp only [covered, hlast]
  cases ts <;> rfl

theorem run_document_iff {ts : List Token} (hord : InOrder ts) (stop : Nat) (d : Document) :
    ((document.run (.start ts stop)).1 = d ∧
        (document.run (.start ts stop)).2.diagnostics.size = 0) ↔
      (∀ t ∈ ts, ¬ t.kind.isFault) ∧
        IsDocument (ts ++ [⟨.endOfInput, .empty stop, []⟩]) d := by
  constructor
  · intro h
    obtain ⟨rfl, hd⟩ := h
    have hu := upcoming_document (.start ts stop)
    generalize hrun : document.run (.start ts stop) = result at hd hu ⊢
    obtain ⟨d, c'⟩ := result
    change c'.upcoming = [] at hu
    have hr : document.Reads (.start ts stop) d c' :=
      ⟨hord.sublist (upcoming_skipFaults_suffix _ ts).sublist, hrun, by simp_all [faultCount]⟩
    have hfault : ∀ t ∈ ts, ¬ t.kind.isFault := by
      have hcount := hr.ready.faultCount_eq
      rwa [faultCount_start, List.countP_eq_zero] at hcount
    rw [start_eq hfault] at hr
    obtain ⟨os, hos, rfl⟩ := (reads_document _ _ _).mp hr
    obtain ⟨us, hp, hg⟩ := (parses_definitions _).sound hos
    obtain ⟨ds, rfl, hds⟩ := many_present_iff.mp hg
    have hstop : c'.span.stop = stop := by
      simp only [span, hu, Span.empty]
      exact hp.endOffset
    obtain rfl : ts = us := by simpa [hu] using hp.upcoming
    refine ⟨hfault, ?_⟩
    rw [hstop, filterMap_map_some, ← covered_end]
    exact .mk hds rfl
  · intro h
    obtain ⟨hfault, hdoc⟩ := h
    generalize hts : ts ++ [(⟨.endOfInput, .empty stop, []⟩ : Token)] = all at hdoc
    obtain ⟨hds, he⟩ := hdoc
    obtain ⟨rfl, hend⟩ := List.append_inj' hts rfl
    cases hend
    obtain ⟨hready, hp⟩ := passed_start hord hfault stop
    have hr := (reads_document _ _ _).mpr ⟨_, (parses_definitions _).complete hready
      ⟨ts, hp, many_present_iff.mpr ⟨_, rfl, hds⟩⟩ rfl, rfl⟩
    rw [hr.2.1]
    refine ⟨?_, rfl⟩
    rw [filterMap_map_some, covered_end, start_eq hfault]
    rfl

theorem parse?_eq_some_iff_run (text : List Char) (d : Document) :
    Document.parse? text = some ⟨d, []⟩ ↔
      (document.run (.start (tokens text) (endOffset text))).1 = d ∧
        (document.run (.start (tokens text) (endOffset text))).2.diagnostics.size = 0 := by
  cases hend : endsInEscape text with
  | true =>
    obtain ⟨t, ht, hk⟩ := List.any_eq_true.mp hend
    rw [Document.parse?, if_pos hend]
    refine ⟨nofun, fun h ↦ ?_⟩
    have hfault := ((run_document_iff (inOrder_tokens text) _ _).mp h).1 t ht
    simp [beq_iff_eq.mp hk, TokenKind.isFault] at hfault
  | false =>
    rw [Document.parse?, if_neg (by simp [hend])]
    simp

theorem not_isFault_of_parse? {text : List Char}
    (h : (Document.parse? text).map (·.diagnostics) = some []) :
    ∀ t ∈ tokens text, ¬ t.kind.isFault := by
  obtain ⟨⟨d, _⟩, hd, rfl⟩ := Option.map_eq_some_iff.mp h
  exact ((run_document_iff (inOrder_tokens text) _ d).mp
    ((parse?_eq_some_iff_run text d).mp hd)).1

/-- A text is read without a fault exactly if no token of it is one and the tokens up to the end of
the input spell definitions. -/
theorem exists_parse?_iff (text : List Char) (ds : List Definition) :
    (∃ span, Document.parse? text = some ⟨⟨ds, span⟩, []⟩) ↔
      (∀ t ∈ tokens text, ¬ t.kind.isFault) ∧ Many IsDefinition (tokens text) ds := by
  simp only [parse?_eq_some_iff_run, run_document_iff (inOrder_tokens text), exists_and_left]
  refine and_congr_right fun _ ↦ ?_
  constructor
  · intro h
    obtain ⟨span, hd⟩ := h
    generalize hall : tokens text ++ [(⟨.endOfInput, .empty (endOffset text), []⟩ : Token)] = all
      at hd
    cases hd with
    | mk hds =>
      obtain ⟨rfl, -⟩ := List.append_inj' hall rfl
      exact hds
  · exact fun hds ↦ ⟨_, .mk hds rfl⟩

/-- A text is read without a fault, as a document, exactly if no token of it is a fault and the
tokens are a sentence that spells the document. -/
theorem Document.parse?_eq_some_iff (text : List Char) (d : Document) :
    Document.parse? text = some ⟨d, []⟩ ↔
      (∀ t ∈ tokenize text, ¬ t.kind.isFault) ∧ IsDocument (tokenize text) d := by
  have hfaults : (∀ t ∈ tokenize text, ¬ t.kind.isFault) ↔ ∀ t ∈ tokens text, ¬ t.kind.isFault := by
    rw [tokenize, List.forall_mem_append]
    refine and_iff_left fun t ht ↦ ?_
    rw [List.mem_singleton.mp ht]
    simp [TokenKind.isFault]
  rw [hfaults, tokenize, ← run_document_iff (inOrder_tokens text), parse?_eq_some_iff_run]

end SchemaBindings.Sdl
