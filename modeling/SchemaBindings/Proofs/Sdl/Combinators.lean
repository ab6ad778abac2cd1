import SchemaBindings.Proofs.Sdl.Reading

namespace SchemaBindings.Sdl

open Cursor Sentence

variable {α : Type}

/-- The tokens between two cursors spell a tree. -/
def Spells (G : Phrase α) (c : Cursor) (a : α) (c' : Cursor) : Prop :=
  ∃ ts, Passed c ts c' ∧ G ts a

inductive Present (G : Phrase α) : Phrase (Option α)
  | mk {ts : List Token} {a : α} (h : G ts a) : Present G ts (some a)

theorem many_present_iff {G : Phrase α} {ts : List Token} {os : List (Option α)} :
    Many (Present G) ts os ↔ ∃ as, os = as.map some ∧ Many G ts as := by
  constructor
  · intro h
    induction h with
    | nil => exact ⟨[], rfl, .nil⟩
    | cons h _ ih =>
      obtain ⟨h⟩ := h
      obtain ⟨as, rfl, has⟩ := ih
      exact ⟨_ :: as, rfl, .cons h has⟩
  · intro h'
    obtain ⟨as, rfl, h⟩ := h'
    induction h with
    | nil => exact .nil
    | cons h _ ih => exact .cons (.mk h) ih

/-- Every phrase has a first token, which satisfies `first`. -/
def Opens (G : Phrase α) (first : TokenKind → Prop) : Prop :=
  ∀ ts a, G ts a → ∃ t us, ts = t :: us ∧ first t.kind

/-- At a cursor the parser reads what the grammar spells, if a token that satisfies `follow` comes
next. -/
structure Parses (p : Parser α) (G : Phrase α) (follow : TokenKind → Prop) (c : Cursor) : Prop where
  sound : ∀ {a c'}, p.Reads c a c' → Spells G c a c'
  complete : ∀ {a c'}, c.Ready → Spells G c a c' → follow c'.kind → p.Reads c a c'

section

variable {G : Phrase α} {first follow itemFollow : TokenKind → Prop} {c c' : Cursor} {a : α}

theorem Spells.kind (h : Spells G c a c') (hopens : Opens G first) : first c.kind := by
  obtain ⟨ts, hp, hg⟩ := h
  obtain ⟨t, us, rfl, ht⟩ := hopens ts a hg
  rwa [hp.kind_eq]

theorem Spells.length_lt (h : Spells G c a c') (hopens : Opens G first) :
    c'.upcoming.length < c.upcoming.length := by
  obtain ⟨ts, hp, hg⟩ := h
  obtain ⟨t, us, rfl, -⟩ := hopens ts a hg
  exact hp.length_lt (by simp)

theorem Spells.ready (h : Spells G c a c') (hc : c.Ready) : c'.Ready := by
  obtain ⟨ts, hp, -⟩ := h
  exact hp.ready hc

theorem Spells.kind_many {as : List α} (h : Spells (Many G) c as c') (hopens : Opens G first) :
    first c.kind ∨ c' = c := by
  obtain ⟨ts, hp, hg⟩ := h
  cases hg with
  | nil => exact Or.inr (passed_nil_iff.mp hp)
  | cons hg hgs =>
    obtain ⟨c₁, hp, -⟩ := passed_append_iff.mp hp
    exact Or.inl (Spells.kind ⟨_, hp, hg⟩ hopens)

theorem Spells.kind_optional {o : Option α} (h : Spells (Optional G) c o c')
    (hopens : Opens G first) : first c.kind ∧ o ≠ none ∨ o = none ∧ c' = c := by
  obtain ⟨ts, hp, hg⟩ := h
  cases hg with
  | absent => exact Or.inr ⟨rfl, passed_nil_iff.mp hp⟩
  | present hg => exact Or.inl ⟨Spells.kind ⟨ts, hp, hg⟩ hopens, by simp⟩

/-- Collecting items reads a repetition: `item` yields nothing where the repetition may end, and
otherwise a phrase, after which the next phrase or the end may follow. -/
theorem parses_collect {item : Parser (Option α)} (itemFollow : TokenKind → Prop)
    (hopens : Opens G first)
    (hnone : ∀ d c', d.upcoming.length ≤ c.upcoming.length → item.Reads d none c' → c' = d)
    (hsome : ∀ d a c', d.upcoming.length ≤ c.upcoming.length → item.Reads d (some a) c' →
      Spells G d a c')
    (hstop : ∀ d : Cursor, d.Ready → follow d.kind → item.Reads d none d)
    (hnext : ∀ d a c', d.upcoming.length ≤ c.upcoming.length → d.Ready → Spells G d a c' →
      itemFollow c'.kind → item.Reads d (some a) c')
    (hfirst : ∀ k, first k → itemFollow k) (hfollow : ∀ k, follow k → itemFollow k) :
    Parses (Parser.collect item) (Many G) follow c := by
  have hmain (n : Nat) : ∀ d : Cursor, d.upcoming.length < n →
      d.upcoming.length ≤ c.upcoming.length →
      Parses (Parser.collectUpTo item n) (Many G) follow d := by
    induction n with
    | zero => exact fun d hd ↦ absurd hd (Nat.not_lt_zero _)
    | succ n ih =>
      intro d hlt hle
      simp only [Parser.collectUpTo]
      constructor
      · intro as c' h
        obtain ⟨o, c₁, ho, h⟩ := (Parser.reads_bind _ _ _).mp h
        cases o with
        | none =>
          obtain ⟨-, rfl, rfl⟩ := (Parser.reads_pure _ _).mp h
          exact ⟨[], passed_nil_iff.mpr (hnone _ _ hle ho), .nil⟩
        | some a =>
          obtain ⟨as', c₂, has, h⟩ := (Parser.reads_bind _ _ _).mp h
          obtain ⟨-, rfl, rfl⟩ := (Parser.reads_pure _ _).mp h
          have ha := hsome _ _ _ hle ho
          have hlen := ha.length_lt hopens
          obtain ⟨us, hpu, hgu⟩ := (ih c₁ (by omega) (by omega)).sound has
          obtain ⟨ts, hpt, hgt⟩ := ha
          exact ⟨ts ++ us, hpt.append hpu, .cons hgt hgu⟩
      · intro as c' hd hs hf
        obtain ⟨ts, hp, hg⟩ := hs
        rw [Parser.reads_bind]
        cases hg with
        | nil =>
          obtain rfl := passed_nil_iff.mp hp
          exact ⟨none, _, hstop _ hd hf, (Parser.reads_pure _ _).mpr ⟨hd, rfl, rfl⟩⟩
        | @cons ts us a as hg hgs =>
          obtain ⟨c₁, hpt, hpu⟩ := passed_append_iff.mp hp
          have ha : Spells G d a c₁ := ⟨ts, hpt, hg⟩
          have has : Spells (Many G) c₁ as c' := ⟨us, hpu, hgs⟩
          have hlen := ha.length_lt hopens
          have hf₁ : itemFollow c₁.kind := by
            rcases has.kind_many hopens with h | rfl
            · exact hfirst _ h
            · exact hfollow _ hf
          refine ⟨some a, c₁, hnext _ _ _ hle hd ha hf₁, (Parser.reads_bind _ _ _).mpr
            ⟨as, c', (ih c₁ (by omega) (by omega)).complete (ha.ready hd) has hf, ?_⟩⟩
          exact (Parser.reads_pure _ _).mpr ⟨has.ready (ha.ready hd), rfl, rfl⟩
  have hrun := hmain (c.upcoming.length + 1) c (Nat.lt_succ_self _) (Nat.le_refl _)
  exact ⟨hrun.sound, hrun.complete⟩

theorem Parses.progress {p : Parser α} (h : Parses p G follow c) (hopens : Opens G first) :
    Parses p.progress G follow c := by
  have hiff (a : α) (c' : Cursor) : p.progress.Reads c a c' ↔ p.Reads c a c' := by
    simp only [Parser.progress, Parser.reads_bind, Parser.reads_look]
    constructor
    · intro hx
      obtain ⟨_, _, ⟨hc, rfl, rfl⟩, a', c₁, hp, _, _, ⟨-, rfl, rfl⟩, h'⟩ := hx
      have hlen := (h.sound hp).length_lt hopens
      rw [if_neg (by omega)] at h'
      obtain ⟨-, rfl, rfl⟩ := (Parser.reads_pure _ _).mp h'
      exact hp
    · intro hp
      have hs := h.sound hp
      have hc' := hs.ready hp.ready
      have hlen := hs.length_lt hopens
      refine ⟨_, _, ⟨hp.ready, rfl, rfl⟩, a, c', hp, _, _, ⟨hc', rfl, rfl⟩, ?_⟩
      rw [if_neg (by omega)]
      exact (Parser.reads_pure _ _).mpr ⟨hc', rfl, rfl⟩
  exact ⟨fun hr ↦ h.sound ((hiff _ _).mp hr), fun hc hs hf ↦ (hiff _ _).mpr (h.complete hc hs hf)⟩

theorem parses_many {more : TokenKind → Bool} {p : Parser α} (hopens : Opens G first)
    (hp : ∀ d, d.upcoming.length ≤ c.upcoming.length → more d.kind → Parses p G itemFollow d)
    (hmore : ∀ k, first k → more k) (hstop : ∀ k, follow k → k = .endOfInput ∨ ¬ more k)
    (hfirst : ∀ k, first k → itemFollow k) (hfollow : ∀ k, follow k → itemFollow k) :
    Parses (Parser.many more p) (Many G) follow c := by
  have hitem (d : Cursor) (o : Option α) (c' : Cursor) :
      Parser.Reads (do
        if (← Parser.look Cursor.atEnd) || !more (← Parser.kind) then return none
        else return some (← p.progress)) d o c' ↔
      d.Ready ∧ ((o = none ∧ (d.atEnd ∨ ¬ more d.kind) ∧ c' = d) ∨
        ∃ a, o = some a ∧ ¬ d.atEnd ∧ more d.kind ∧ p.progress.Reads d a c') := by
    simp only [Parser.reads_bind, Parser.reads_look, Parser.reads_kind]
    constructor
    · intro h'
      obtain ⟨_, _, ⟨hd, rfl, rfl⟩, _, _, ⟨-, rfl, rfl⟩, h⟩ := h'
      refine ⟨hd, ?_⟩
      split at h
      next hend =>
        obtain ⟨-, rfl, rfl⟩ := (Parser.reads_pure _ _).mp h
        exact Or.inl ⟨rfl, by simpa using hend, rfl⟩
      next hgo =>
        obtain ⟨a, c₁, ha, h⟩ := (Parser.reads_bind _ _ _).mp h
        obtain ⟨-, rfl, rfl⟩ := (Parser.reads_pure _ _).mp h
        simp only [Bool.or_eq_true, Bool.not_eq_true', not_or, Bool.not_eq_false] at hgo
        exact Or.inr ⟨a, rfl, hgo.1, hgo.2, ha⟩
    · intro h'
      obtain ⟨hd, ⟨rfl, hend, rfl⟩ | ⟨a, rfl, hend, hgo, ha⟩⟩ := h'
      · refine ⟨_, _, ⟨hd, rfl, rfl⟩, _, _, ⟨hd, rfl, rfl⟩, ?_⟩
        rw [if_pos (by simpa using hend)]
        exact (Parser.reads_pure _ _).mpr ⟨hd, rfl, rfl⟩
      · refine ⟨_, _, ⟨hd, rfl, rfl⟩, _, _, ⟨hd, rfl, rfl⟩, ?_⟩
        rw [if_neg (by simp [hend, hgo]), Parser.reads_bind]
        exact ⟨a, c', ha, (Parser.reads_pure _ _).mpr ⟨ha.ready_after, rfl, rfl⟩⟩
  unfold Parser.many
  refine parses_collect itemFollow hopens ?_ ?_ ?_ ?_ hfirst hfollow
  · intro d c' hle h
    rcases ((hitem _ _ _).mp h).2 with ⟨-, -, rfl⟩ | ⟨a, ha, -⟩
    · rfl
    · cases ha
  · intro d a c' hle h
    rcases ((hitem _ _ _).mp h).2 with ⟨ha, -⟩ | ⟨a, ha, -, hgo, hr⟩
    · cases ha
    · cases ha
      exact ((hp d hle hgo).progress hopens).sound hr
  · intro d hd hf
    refine (hitem _ _ _).mpr ⟨hd, Or.inl ⟨rfl, ?_, rfl⟩⟩
    exact (hstop _ hf).imp hd.atEnd_iff.mpr id
  · intro d a c' hle hd hs hf
    have hgo := hmore _ (hs.kind hopens)
    refine (hitem _ _ _).mpr ⟨hd, Or.inr ⟨a, rfl, ?_, hgo,
      ((hp d hle hgo).progress hopens).complete hd hs hf⟩⟩
    obtain ⟨ts, hpass, hg⟩ := hs
    obtain ⟨t, us, rfl, -⟩ := hopens ts a hg
    simp [atEnd, hpass.upcoming]

/-- A parser that contains itself reads what its grammar spells if one unfolding does wherever the
parser inside meets fewer tokens. -/
theorem parses_nested [Inhabited α] {step : Parser α → Parser α}
    (hstep : ∀ inner d, (∀ e : Cursor, e.upcoming.length < d.upcoming.length →
      Parses inner G follow e) → Parses (step inner) G follow d) (c : Cursor) :
    Parses (Parser.nested step) G follow c := by
  have hmain (n : Nat) : ∀ d : Cursor, d.upcoming.length < n →
      Parses (Parser.unfoldUpTo step n) G follow d := by
    induction n with
    | zero => exact fun d hd ↦ absurd hd (Nat.not_lt_zero _)
    | succ n ih =>
      intro d hlt
      refine hstep _ d fun e he ↦ ?_
      have hinner := ih e (by omega)
      exact ⟨hinner.sound, hinner.complete⟩
  have hrun := hmain (c.upcoming.length + 1) c (Nat.lt_succ_self _)
  exact ⟨hrun.sound, hrun.complete⟩

end

section

variable {G : Phrase α} {first itemFollow : TokenKind → Prop} {c : Cursor}

theorem opens_preceded (k : TokenKind) : Opens (Preceded k G) (· = k) := by
  intro _ _ h
  obtain ⟨hk, -⟩ := h
  exact ⟨_, _, rfl, hk⟩

theorem opens_bracketed (opening closing : Punctuator) :
    Opens (Bracketed opening closing G) (· = .punctuator opening) := by
  intro _ _ h
  obtain ⟨ho, -, -⟩ := h
  exact ⟨_, _, rfl, ho⟩

structure ItemsOf (closing : Punctuator) (p : Parser α) (G : Phrase α)
    (first itemFollow : TokenKind → Prop) (c : Cursor) : Prop where
  opens : Opens G first
  parses : ∀ d, d.upcoming.length < c.upcoming.length → Parses p G itemFollow d
  first_ne : ∀ k, first k → k ≠ .punctuator closing
  first_follow : ∀ k, first k → itemFollow k
  closing_follow : itemFollow (.punctuator closing)

theorem ItemsOf.upTo {closing : Punctuator} {p : Parser α}
    (h : ItemsOf closing p G first itemFollow c) {d : Cursor}
    (hd : d.upcoming.length < c.upcoming.length) :
    Parses (Grammar.upTo closing p) (Many G) (· = .punctuator closing) d := by
  refine parses_many h.opens (fun e he _ ↦ h.parses e (by omega)) (fun k hk ↦ ?_) (fun k hk ↦ ?_)
    h.first_follow fun k hk ↦ hk ▸ h.closing_follow
  · simpa using h.first_ne k hk
  · exact Or.inr (by simpa using hk)

theorem parses_bracketed {opening closing : Punctuator} {p : Parser α}
    (hk : c.kind = .punctuator opening) (h : ItemsOf closing p G first itemFollow c) :
    Parses (Grammar.enclosed opening closing (Grammar.upTo closing p))
      (Bracketed opening closing G) (fun _ ↦ True) c where
  sound := by
    intro as c' hr
    simp only [Grammar.enclosed, Parser.reads_bind,
      Parser.reads_eat (TokenKind.noConfusion : TokenKind.punctuator opening ≠ .endOfInput)] at hr
    obtain ⟨_, c₁, ⟨hc, ⟨rfl, o, ho, hpo⟩ | ⟨rfl, hne, rfl⟩⟩, hr⟩ := hr
    · simp only [if_true, Parser.reads_bind, Parser.reads_pure,
        Parser.reads_expect (TokenKind.noConfusion : TokenKind.punctuator closing ≠ .endOfInput)]
        at hr
      obtain ⟨as, c₂, has, _, _, ⟨-, cl, hcl, hpc⟩, -, rfl, rfl⟩ := hr
      obtain ⟨ts, hpt, hg⟩ := (h.upTo (hpo.length_lt (by simp))).sound has
      exact ⟨_, (hpo.append hpt).append hpc, .mk ho hg hcl⟩
    · exact absurd hk hne
  complete := by
    intro as c' hc hs _
    obtain ⟨_, hp, @⟨o, cl, ts, _, ho, hg, hcl⟩⟩ := hs
    simp only [List.append_assoc, passed_append_iff] at hp
    obtain ⟨c₁, hpo, c₂, hpt, hpc⟩ := hp
    have hlt := hpo.length_lt (by simp)
    simp only [Grammar.enclosed, Parser.reads_bind,
      Parser.reads_eat (TokenKind.noConfusion : TokenKind.punctuator opening ≠ .endOfInput)]
    refine ⟨true, c₁, ⟨hc, Or.inl ⟨rfl, o, ho, hpo⟩⟩, ?_⟩
    simp only [if_true, Parser.reads_bind, Parser.reads_pure,
      Parser.reads_expect (TokenKind.noConfusion : TokenKind.punctuator closing ≠ .endOfInput)]
    have hc₁ := hpo.ready hc
    have hc₂ := hpt.ready hc₁
    have hk₂ : c₂.kind = .punctuator closing := hpc.kind_eq.trans hcl
    exact ⟨as, c₂, (h.upTo hlt).complete hc₁ ⟨ts, hpt, hg⟩ hk₂, (), c', ⟨hc₂, cl, hcl, hpc⟩,
      hpc.ready hc₂, rfl, rfl⟩

theorem parses_enclosed {opening closing : Punctuator} {p : Parser α}
    (h : ItemsOf closing p G first itemFollow c) :
    Parses (Grammar.enclosed opening closing (Grammar.upTo closing p))
      (Enclosed opening closing G) (· ≠ .punctuator opening) c := by
  by_cases hk : c.kind = .punctuator opening
  · have hb := parses_bracketed hk h
    constructor
    · intro as c' hr
      obtain ⟨ts, hp, hg⟩ := hb.sound hr
      exact ⟨ts, hp, .present hg⟩
    · intro as c' hc hs hf
      obtain ⟨ts, hp, hg⟩ := hs
      cases hg with
      | absent => rw [passed_nil_iff.mp hp] at hf; exact absurd hk hf
      | present hg => exact hb.complete hc ⟨ts, hp, hg⟩ trivial
  · have hiff (as : List α) (c' : Cursor) :
        (Grammar.enclosed opening closing (Grammar.upTo closing p)).Reads c as c' ↔
          c.Ready ∧ as = [] ∧ c' = c := by
      simp only [Grammar.enclosed, Parser.reads_bind,
        Parser.reads_eat (TokenKind.noConfusion : TokenKind.punctuator opening ≠ .endOfInput)]
      constructor
      · intro h'
        obtain ⟨_, c₁, ⟨hc, ⟨rfl, o, ho, hpo⟩ | ⟨rfl, hne, rfl⟩⟩, hr⟩ := h'
        · exact absurd (hpo.kind_eq.trans ho) hk
        · exact (Parser.reads_pure _ _).mp hr
      · intro h'
        obtain ⟨hc, rfl, rfl⟩ := h'
        exact ⟨false, _, ⟨hc, Or.inr ⟨rfl, hk, rfl⟩⟩, (Parser.reads_pure _ _).mpr ⟨hc, rfl, rfl⟩⟩
    constructor
    · intro as c' hr
      obtain ⟨-, rfl, rfl⟩ := (hiff _ _).mp hr
      exact ⟨[], passed_nil_iff.mpr rfl, .absent⟩
    · intro as c' hc hs _
      obtain ⟨ts, hp, hg⟩ := hs
      cases hg with
      | absent => exact (hiff _ _).mpr ⟨hc, rfl, passed_nil_iff.mp hp⟩
      | present hg => exact absurd (Spells.kind ⟨ts, hp, hg⟩ (opens_bracketed _ _)) hk

end

end SchemaBindings.Sdl
