import SchemaBindings.Proofs.Sdl.Sentence
import Mathlib.Data.List.Basic

namespace SchemaBindings.Sdl

/-- Tokens as a text has them: none is the end of the input, punctuators are what they look like,
and the spans follow one another. -/
structure InOrder (ts : List Token) : Prop where
  kind_ne : ∀ t ∈ ts, t.kind ≠ .endOfInput
  text_eq : ∀ t ∈ ts, ∀ p, t.kind = .punctuator p → t.text = p.text.toList
  start_le : ∀ t ∈ ts, t.span.start ≤ t.span.stop
  pairwise : ts.Pairwise fun t u ↦ t.span.start ≤ u.span.stop

theorem InOrder.sublist {ts us : List Token} (h : InOrder us) (hs : ts.Sublist us) : InOrder ts :=
  ⟨fun t ht ↦ h.kind_ne t (hs.subset ht), fun t ht ↦ h.text_eq t (hs.subset ht),
    fun t ht ↦ h.start_le t (hs.subset ht), h.pairwise.sublist hs⟩

namespace Cursor

/-- A cursor before which and after which there is no fault. -/
structure Ready (c : Cursor) : Prop where
  inOrder : InOrder c.upcoming
  faultCount_eq : c.faultCount = 0

/-- The second cursor stands behind `ts`, at whose start the first one stands. -/
structure Passed (c : Cursor) (ts : List Token) (c' : Cursor) : Prop where
  upcoming : c.upcoming = ts ++ c'.upcoming
  consumedTo : c'.consumedTo = (ts.getLast?.map (·.span.stop)).getD c.consumedTo
  endOffset : c'.endOffset = c.endOffset
  diagnostics : c'.diagnostics = c.diagnostics

variable {c c' : Cursor} {ts us : List Token} {t : Token}

theorem passed_nil_iff : Passed c [] c' ↔ c' = c := by
  constructor
  · intro h
    obtain ⟨u, e, k, d⟩ := c'
    obtain ⟨hu, hk, he, hd⟩ := h
    obtain rfl : c.upcoming = u := hu
    obtain rfl : k = c.consumedTo := hk
    obtain rfl : e = c.endOffset := he
    obtain rfl : d = c.diagnostics := hd
    rfl
  · rintro rfl
    exact ⟨rfl, rfl, rfl, rfl⟩

theorem passed_append_iff :
    Passed c (ts ++ us) c' ↔ ∃ c₁, Passed c ts c₁ ∧ Passed c₁ us c' := by
  constructor
  · intro h
    refine ⟨⟨us ++ c'.upcoming, c.endOffset, (ts.getLast?.map (·.span.stop)).getD c.consumedTo,
      c.diagnostics⟩, ⟨?_, rfl, rfl, rfl⟩, ⟨rfl, ?_, h.endOffset, h.diagnostics⟩⟩
    · rw [h.upcoming, List.append_assoc]
    · rw [h.consumedTo, List.getLast?_append]
      cases us.getLast? <;> simp
  · intro h'
    obtain ⟨c₁, h₁, h₂⟩ := h'
    refine ⟨?_, ?_, h₂.endOffset.trans h₁.endOffset, h₂.diagnostics.trans h₁.diagnostics⟩
    · rw [h₁.upcoming, h₂.upcoming, List.append_assoc]
    · rw [h₂.consumedTo, h₁.consumedTo, List.getLast?_append]
      cases us.getLast? <;> simp

theorem Passed.append {c₁ : Cursor} (h : Passed c ts c₁) (h' : Passed c₁ us c') :
    Passed c (ts ++ us) c' :=
  passed_append_iff.mpr ⟨c₁, h, h'⟩

theorem Passed.unique {c₁ c₂ : Cursor} (h₁ : Passed c ts c₁) (h₂ : Passed c ts c₂) : c₁ = c₂ := by
  obtain ⟨u₁, e₁, k₁, d₁⟩ := c₁
  obtain ⟨u₂, e₂, k₂, d₂⟩ := c₂
  obtain rfl : u₁ = u₂ := List.append_cancel_left (h₁.upcoming.symm.trans h₂.upcoming)
  obtain rfl : k₁ = k₂ := h₁.consumedTo.trans h₂.consumedTo.symm
  obtain rfl : e₁ = e₂ := h₁.endOffset.trans h₂.endOffset.symm
  obtain rfl : d₁ = d₂ := h₁.diagnostics.trans h₂.diagnostics.symm
  rfl

theorem Passed.ready (h : Passed c ts c') (hc : c.Ready) : c'.Ready := by
  have hs : c'.upcoming <:+ c.upcoming := ⟨ts, h.upcoming.symm⟩
  refine ⟨hc.inOrder.sublist hs.sublist, ?_⟩
  have hcount := hc.faultCount_eq
  have hle : c'.upcoming.tail.countP (·.kind.isFault) ≤ c.upcoming.tail.countP (·.kind.isFault) :=
    hs.sublist.tail.countP_le
  simp only [faultCount, h.diagnostics] at hcount ⊢
  omega

theorem Passed.kind_eq (h : Passed c (t :: ts) c') : c.kind = t.kind := by
  simp [kind, h.upcoming]

theorem Passed.length_lt (h : Passed c ts c') (hts : ts ≠ []) :
    c'.upcoming.length < c.upcoming.length := by
  have hlen := List.length_pos_iff.mpr hts
  rw [h.upcoming, List.length_append]
  omega

theorem Passed.spanFrom_eq (h : Passed c ts c') (hc : c.Ready) (hts : ts ≠ []) :
    (⟨c.span.start, max c'.consumedTo c.span.start⟩ : Span) = Sentence.covered ts := by
  obtain ⟨first, rest, rfl⟩ := List.exists_cons_of_ne_nil hts
  have hlast : ((first :: rest).getLast?) = some ((first :: rest).getLast hts) :=
    List.getLast?_eq_getLast_of_ne_nil hts
  have hle : first.span.start ≤ ((first :: rest).getLast hts).span.stop := by
    have hsub : (first :: rest).Sublist c.upcoming := by
      rw [h.upcoming]
      exact List.sublist_append_left _ _
    have hord := hc.inOrder.sublist hsub
    rcases List.mem_cons.mp (List.getLast_mem hts) with he | hmem
    · rw [he]
      exact hord.start_le first (by simp)
    · exact (List.pairwise_cons.mp hord.pairwise).1 _ hmem
  have hstart : c.span.start = first.span.start := by simp [span, h.upcoming]
  rw [hstart, h.consumedTo, hlast]
  simp only [Sentence.covered, hlast, List.head?_cons, Option.map_some, Option.getD_some]
  rw [Nat.max_eq_left hle]

theorem passed_advance (hc : c.Ready) (h : c.upcoming = t :: ts) : Passed c [t] c.advance := by
  have hts : ∀ u ∈ ts, u.kind.isFault = false := by
    have hcount := hc.faultCount_eq
    simp only [faultCount, h, List.tail_cons, Nat.add_eq_zero_iff, List.countP_eq_zero] at hcount
    simpa using hcount.2
  have hskip (d : Cursor) : d.skipFaults ts = { d with upcoming := ts } := by
    cases ts with
    | nil => rfl
    | cons u us => simp [skipFaults, hts u (by simp)]
  simp only [advance, h, hskip]
  exact ⟨by simp [h], rfl, rfl, rfl⟩

theorem exists_upcoming_of_kind_ne (h : c.kind ≠ .endOfInput) :
    ∃ t ts, c.upcoming = t :: ts ∧ t.kind = c.kind := by
  cases hu : c.upcoming with
  | nil => simp [kind, hu] at h
  | cons t ts => exact ⟨t, ts, rfl, by simp [kind, hu]⟩

theorem Ready.atEnd_iff (hc : c.Ready) : c.atEnd ↔ c.kind = .endOfInput := by
  cases hu : c.upcoming with
  | nil => simp [atEnd, kind, hu]
  | cons t ts =>
    have := hc.inOrder.kind_ne t (by simp [hu])
    simp [atEnd, kind, hu, this]

end Cursor

namespace Parser

open Cursor

variable {α β : Type} {c c' : Cursor}

/-- From `c` the parser yields `a` and stops at `c'`; there is no fault up to there nor after. -/
def Reads (p : Parser α) (c : Cursor) (a : α) (c' : Cursor) : Prop :=
  InOrder c.upcoming ∧ p.run c = (a, c') ∧ c'.faultCount = 0

theorem Reads.ready {p : Parser α} {a : α} (h : p.Reads c a c') : c.Ready := by
  obtain ⟨hord, hrun, hcount⟩ := h
  have hle := p.accounts c
  rw [hrun, hcount] at hle
  exact ⟨hord, Nat.le_zero.mp hle⟩

theorem Reads.ready_after {p : Parser α} {a : α} (h : p.Reads c a c') : c'.Ready := by
  obtain ⟨hord, hrun, hcount⟩ := h
  have hforward := p.forward c
  rw [hrun] at hforward
  exact ⟨hord.sublist hforward.sublist, hcount⟩

theorem reads_pure (a b : α) : (pure a : Parser α).Reads c b c' ↔ c.Ready ∧ b = a ∧ c' = c := by
  constructor
  · intro h
    have hc := h.ready
    obtain ⟨-, hrun, -⟩ := h
    cases hrun
    exact ⟨hc, rfl, rfl⟩
  · intro h'
    obtain ⟨hc, rfl, rfl⟩ := h'
    exact ⟨hc.inOrder, rfl, hc.faultCount_eq⟩

theorem reads_bind (p : Parser α) (f : α → Parser β) (b : β) :
    (p >>= f).Reads c b c' ↔ ∃ a c₁, p.Reads c a c₁ ∧ (f a).Reads c₁ b c' := by
  constructor
  · intro h
    obtain ⟨hord, hrun, hcount⟩ := h
    have hle := (f (p.run c).1).accounts (p.run c).2
    have hrun' : (f (p.run c).1).run (p.run c).2 = (b, c') := hrun
    rw [hrun', hcount] at hle
    exact ⟨(p.run c).1, (p.run c).2, ⟨hord, rfl, Nat.le_zero.mp hle⟩,
      hord.sublist (p.forward c).sublist, hrun', hcount⟩
  · intro h
    obtain ⟨a, c₁, ⟨hord, hrun, -⟩, -, hrun', hcount⟩ := h
    refine ⟨hord, ?_, hcount⟩
    change (f (p.run c).1).run (p.run c).2 = (b, c')
    rw [hrun]
    exact hrun'

theorem reads_map (p : Parser α) (f : α → β) (b : β) :
    (f <$> p).Reads c b c' ↔ ∃ a, p.Reads c a c' ∧ b = f a := by
  change (p >>= fun a ↦ pure (f a)).Reads c b c' ↔ _
  rw [reads_bind]
  constructor
  · intro h'
    obtain ⟨a, c₁, hp, h⟩ := h'
    obtain ⟨-, rfl, rfl⟩ := (reads_pure _ _).mp h
    exact ⟨a, hp, rfl⟩
  · intro h'
    obtain ⟨a, hp, rfl⟩ := h'
    exact ⟨a, c', hp, (reads_pure _ _).mpr ⟨hp.ready_after, rfl, rfl⟩⟩

theorem reads_look (f : Cursor → α) (a : α) :
    (look f).Reads c a c' ↔ c.Ready ∧ a = f c ∧ c' = c := by
  constructor
  · intro h
    have hc := h.ready
    obtain ⟨-, hrun, -⟩ := h
    cases hrun
    exact ⟨hc, rfl, rfl⟩
  · intro h'
    obtain ⟨hc, rfl, rfl⟩ := h'
    exact ⟨hc.inOrder, rfl, hc.faultCount_eq⟩

theorem reads_kind (k : TokenKind) :
    kind.Reads c k c' ↔ c.Ready ∧ k = c.kind ∧ c' = c :=
  reads_look _ _

theorem not_reads_report (d : Diagnostic) (u : Unit) : ¬ (report d).Reads c u c' := by
  intro h
  obtain ⟨-, hrun, hcount⟩ := h
  cases hrun
  rw [faultCount_report] at hcount
  cases hcount

theorem not_reads_unexpected (message : String) (u : Unit) :
    ¬ (unexpected message).Reads c u c' := by
  intro h
  obtain ⟨-, hrun, hcount⟩ := h
  cases hrun
  rw [faultCount_report] at hcount
  cases hcount

theorem reads_advance (h : c.kind ≠ .endOfInput) (u : Unit) :
    advance.Reads c u c' ↔ c.Ready ∧ ∃ t, t.kind = c.kind ∧ Passed c [t] c' := by
  obtain ⟨t, ts, hu, hk⟩ := exists_upcoming_of_kind_ne h
  constructor
  · intro hr
    have hc := hr.ready
    obtain ⟨-, hrun, -⟩ := hr
    cases hrun
    exact ⟨hc, t, hk, passed_advance hc hu⟩
  · intro h'
    obtain ⟨hc, t', hk', hp⟩ := h'
    obtain rfl : t' = t := by
      have he := hp.upcoming.symm.trans hu
      exact (List.cons.inj he).1
    obtain rfl := hp.unique (passed_advance hc hu)
    exact ⟨hc.inOrder, rfl, (hp.ready hc).faultCount_eq⟩

theorem reads_eat {k : TokenKind} (hk : k ≠ .endOfInput) (b : Bool) :
    (eat k).Reads c b c' ↔ c.Ready ∧
      ((b = true ∧ ∃ t, t.kind = k ∧ Passed c [t] c') ∨ (b = false ∧ c.kind ≠ k ∧ c' = c)) := by
  simp only [eat, reads_bind, reads_kind]
  constructor
  · intro h'
    obtain ⟨_, _, ⟨hc, rfl, rfl⟩, h⟩ := h'
    refine ⟨hc, ?_⟩
    split at h
    next he =>
      obtain ⟨_, c₁, ha, h⟩ := (reads_bind _ _ _).mp h
      obtain ⟨-, t, ht, hp⟩ := (reads_advance (he ▸ hk) _).mp ha
      obtain ⟨-, rfl, rfl⟩ := (reads_pure _ _).mp h
      exact Or.inl ⟨rfl, t, ht.trans he, hp⟩
    next he =>
      obtain ⟨-, rfl, rfl⟩ := (reads_pure _ _).mp h
      exact Or.inr ⟨rfl, he, rfl⟩
  · intro h'
    obtain ⟨hc, ⟨rfl, t, ht, hp⟩ | ⟨rfl, he, rfl⟩⟩ := h'
    · have he : c.kind = k := hp.kind_eq.trans ht
      refine ⟨_, _, ⟨hc, rfl, rfl⟩, ?_⟩
      rw [if_pos he, reads_bind]
      exact ⟨(), c', (reads_advance (he ▸ hk) _).mpr ⟨hc, t, ht.trans he.symm, hp⟩,
        (reads_pure _ _).mpr ⟨hp.ready hc, rfl, rfl⟩⟩
    · refine ⟨_, _, ⟨hc, rfl, rfl⟩, ?_⟩
      rw [if_neg he]
      exact (reads_pure _ _).mpr ⟨hc, rfl, rfl⟩

theorem reads_expect {k : TokenKind} (hk : k ≠ .endOfInput) (u : Unit) :
    (expect k).Reads c u c' ↔ c.Ready ∧ ∃ t, t.kind = k ∧ Passed c [t] c' := by
  simp only [expect, reads_bind, reads_eat hk]
  constructor
  · intro h'
    obtain ⟨b, c₁, ⟨hc, hb⟩, h⟩ := h'
    refine ⟨hc, ?_⟩
    rcases hb with ⟨rfl, t, ht, hp⟩ | ⟨rfl, -, rfl⟩
    · rw [if_pos rfl] at h
      obtain ⟨-, -, rfl⟩ := (reads_pure _ _).mp h
      exact ⟨t, ht, hp⟩
    · obtain ⟨_, _, -, h⟩ := (reads_bind _ _ _).mp h
      exact absurd h (not_reads_report _ _)
  · intro h'
    obtain ⟨hc, t, ht, hp⟩ := h'
    refine ⟨true, c', ⟨hc, Or.inl ⟨rfl, t, ht, hp⟩⟩, ?_⟩
    rw [if_pos rfl]
    exact (reads_pure _ _).mpr ⟨hp.ready hc, rfl, rfl⟩

theorem reads_pure_bind (a : α) (f : α → Parser β) (b : β) :
    (pure a >>= f).Reads c b c' ↔ (f a).Reads c b c' := Iff.rfl

theorem reads_look_bind (g : Cursor → α) (f : α → Parser β) (b : β) :
    (look g >>= f).Reads c b c' ↔ (f (g c)).Reads c b c' := Iff.rfl

theorem reads_kind_bind (f : TokenKind → Parser β) (b : β) :
    (kind >>= f).Reads c b c' ↔ (f c.kind).Reads c b c' := Iff.rfl

theorem reads_offset_bind (f : Nat → Parser β) (b : β) :
    (offset >>= f).Reads c b c' ↔ (f c.span.start).Reads c b c' := Iff.rfl

theorem reads_spanFrom_bind (start : Nat) (f : Span → Parser β) (b : β) :
    (spanFrom start >>= f).Reads c b c' ↔ (f ⟨start, max c.consumedTo start⟩).Reads c b c' :=
  Iff.rfl

theorem reads_spanFrom_pure (start : Nat) (f : Span → β) (b : β) :
    (spanFrom start >>= fun s ↦ (pure (f s) : Parser β)).Reads c b c' ↔
      c.Ready ∧ b = f ⟨start, max c.consumedTo start⟩ ∧ c' = c := by
  rw [reads_spanFrom_bind, reads_pure]

theorem not_reads_unexpected_bind (message : String) (f : Unit → Parser β) (b : β) :
    ¬ (unexpected message >>= f).Reads c b c' := by
  rw [reads_bind]
  intro h'
  obtain ⟨u, c₁, h, -⟩ := h'
  exact not_reads_unexpected _ _ h

theorem reads_advance_bind (h : c.kind ≠ .endOfInput) (f : Unit → Parser β) (b : β) :
    (advance >>= f).Reads c b c' ↔
      ∃ t c₁, t.kind = c.kind ∧ c.Ready ∧ Passed c [t] c₁ ∧ (f ()).Reads c₁ b c' := by
  rw [reads_bind]
  constructor
  · intro h'
    obtain ⟨_, c₁, ha, hf⟩ := h'
    obtain ⟨hc, t, ht, hp⟩ := (reads_advance h _).mp ha
    exact ⟨t, c₁, ht, hc, hp, hf⟩
  · intro h'
    obtain ⟨t, c₁, ht, hc, hp, hf⟩ := h'
    exact ⟨(), c₁, (reads_advance h _).mpr ⟨hc, t, ht, hp⟩, hf⟩

theorem reads_eat_bind {k : TokenKind} (hk : k ≠ .endOfInput) (f : Bool → Parser β) (b : β) :
    (eat k >>= f).Reads c b c' ↔
      (∃ t c₁, t.kind = k ∧ c.Ready ∧ Passed c [t] c₁ ∧ (f true).Reads c₁ b c') ∨
        (c.kind ≠ k ∧ (f false).Reads c b c') := by
  rw [reads_bind]
  constructor
  · intro h'
    obtain ⟨_, c₁, h, hf⟩ := h'
    rcases (reads_eat hk _).mp h with ⟨hc, ⟨rfl, t, ht, hp⟩ | ⟨rfl, hne, rfl⟩⟩
    · exact Or.inl ⟨t, c₁, ht, hc, hp, hf⟩
    · exact Or.inr ⟨hne, hf⟩
  · intro h'
    rcases h' with ⟨t, c₁, ht, hc, hp, hf⟩ | ⟨hne, hf⟩
    · exact ⟨true, c₁, (reads_eat hk _).mpr ⟨hc, Or.inl ⟨rfl, t, ht, hp⟩⟩, hf⟩
    · exact ⟨false, c, (reads_eat hk _).mpr ⟨hf.ready, Or.inr ⟨rfl, hne, rfl⟩⟩, hf⟩

theorem reads_expect_bind {k : TokenKind} (hk : k ≠ .endOfInput) (f : Unit → Parser β) (b : β) :
    (expect k >>= f).Reads c b c' ↔
      ∃ t c₁, t.kind = k ∧ c.Ready ∧ Passed c [t] c₁ ∧ (f ()).Reads c₁ b c' := by
  rw [reads_bind]
  constructor
  · intro h'
    obtain ⟨_, c₁, h, hf⟩ := h'
    obtain ⟨hc, t, ht, hp⟩ := (reads_expect hk _).mp h
    exact ⟨t, c₁, ht, hc, hp, hf⟩
  · intro h'
    obtain ⟨t, c₁, ht, hc, hp, hf⟩ := h'
    exact ⟨(), c₁, (reads_expect hk _).mpr ⟨hc, t, ht, hp⟩, hf⟩

end Parser

end SchemaBindings.Sdl
