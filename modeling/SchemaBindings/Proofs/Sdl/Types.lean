import SchemaBindings.Proofs.Sdl.Combinators

namespace SchemaBindings.Sdl

open Cursor Sentence Grammar SchemaBindings.Sdl.Parser

variable {c c' : Cursor}

theorem Cursor.Passed.text_eq {t : Token} {ts : List Token} (h : Passed c (t :: ts) c') :
    c.text = t.text := by
  simp [text, h.upcoming]

theorem Cursor.Passed.span_eq {t : Token} {ts : List Token} (h : Passed c (t :: ts) c') :
    c.span = t.span := by
  simp [span, h.upcoming]

theorem TokenKind.ne_endOfInput_of_isName {k : TokenKind} (h : k.isName) : k ≠ .endOfInput := by
  rintro rfl
  cases h

theorem parses_name (c : Cursor) : Parses name IsName (fun _ ↦ True) c where
  sound := by
    intro n c' h
    simp only [name, reads_look_bind, reads_kind_bind] at h
    split at h
    next hk =>
      rw [reads_advance_bind (TokenKind.ne_endOfInput_of_isName hk)] at h
      obtain ⟨t, c₁, ht, hc, hp, h⟩ := h
      obtain ⟨-, rfl, rfl⟩ := (reads_pure _ _).mp h
      rw [hp.text_eq, hp.span_eq]
      exact ⟨[t], hp, .mk (ht ▸ hk)⟩
    next => exact absurd h (not_reads_unexpected_bind _ _ _)
  complete := by
    intro n c' hc hs _
    obtain ⟨_, hp, @⟨t, ht⟩⟩ := hs
    have hk : c.kind.isName := hp.kind_eq ▸ ht
    simp only [name, reads_look_bind, reads_kind_bind]
    rw [if_pos hk, reads_advance_bind (TokenKind.ne_endOfInput_of_isName hk), hp.text_eq,
      hp.span_eq]
    exact ⟨t, c', hp.kind_eq.symm, hc, hp, (reads_pure _ _).mpr ⟨hp.ready hc, rfl, rfl⟩⟩

theorem opens_name : Opens IsName (·.isName) := by
  intro _ _ h'
  obtain ⟨h⟩ := h'
  exact ⟨_, _, rfl, h⟩

def isString : TokenKind → Bool
  | .string | .blockString => true
  | _ => false

theorem opens_description : Opens IsDescription (isString ·) := by
  intro _ _ h'
  rcases h' with h | h
  · exact ⟨_, _, rfl, by rw [h]; rfl⟩
  · exact ⟨_, _, rfl, by rw [h]; rfl⟩

theorem reads_take {α β : Type} (h : c.kind ≠ .endOfInput) (f : Cursor → α) (g : α → β) (b : β) :
    (look f >>= fun a ↦ advance >>= fun _ ↦ (pure (g a) : Parser β)).Reads c b c' ↔
      c.Ready ∧ b = g (f c) ∧ ∃ t, t.kind = c.kind ∧ Passed c [t] c' := by
  rw [reads_look_bind, reads_advance_bind h]
  constructor
  · intro h'
    obtain ⟨t, c₁, ht, hc, hp, hr⟩ := h'
    obtain ⟨-, rfl, rfl⟩ := (reads_pure _ _).mp hr
    exact ⟨hc, rfl, t, ht, hp⟩
  · intro h'
    obtain ⟨hc, rfl, t, ht, hp⟩ := h'
    exact ⟨t, c', ht, hc, hp, (reads_pure _ _).mpr ⟨hp.ready hc, rfl, rfl⟩⟩

theorem parses_description (c : Cursor) :
    Parses description? (Optional IsDescription) (¬ isString ·) c where
  sound := by
    intro d c' h
    simp only [description?, reads_kind_bind] at h
    cases hk : c.kind <;> simp only [hk] at h
    case string =>
      obtain ⟨-, rfl, t, ht, hp⟩ := (reads_take (by simp [hk]) _ _ _).mp h
      rw [hp.text_eq, hp.span_eq]
      exact ⟨[t], hp, .present (.string (ht.trans hk))⟩
    case blockString =>
      obtain ⟨-, rfl, t, ht, hp⟩ := (reads_take (by simp [hk]) _ _ _).mp h
      rw [hp.text_eq, hp.span_eq]
      exact ⟨[t], hp, .present (.block (ht.trans hk))⟩
    all_goals
      obtain ⟨-, rfl, rfl⟩ := (reads_pure _ _).mp h
      exact ⟨[], passed_nil_iff.mpr rfl, .absent⟩
  complete := by
    intro d c' hc hs hf
    obtain ⟨_, hp, h⟩ := hs
    simp only [description?, reads_kind_bind]
    cases h with
    | absent =>
      obtain rfl := passed_nil_iff.mp hp
      cases hk : c'.kind <;> simp only [hk, isString, not_true_eq_false] at hf <;>
        exact (reads_pure _ _).mpr ⟨hc, rfl, rfl⟩
    | present h =>
      cases h with
      | string ht =>
        have hk := hp.kind_eq.trans ht
        simp only [hk]
        exact (reads_take (by simp [hk]) _ _ _).mpr
          ⟨hc, by rw [hp.text_eq, hp.span_eq], _, hp.kind_eq.symm, hp⟩
      | block ht =>
        have hk := hp.kind_eq.trans ht
        simp only [hk]
        exact (reads_take (by simp [hk]) _ _ _).mpr
          ⟨hc, by rw [hp.text_eq, hp.span_eq], _, hp.kind_eq.symm, hp⟩

def bangOr (start : Nat) (base : TypeRef) : Parser TypeRef := do
  if ← eat (.punctuator .bang) then return .nonNull base (← spanFrom start)
  else return base

theorem sound_bangOr {d : Cursor} {ts : List Token} {base t : TypeRef} (hc : c.Ready)
    (hp : Passed c ts d) (hg : IsNullable ts base)
    (h : (bangOr c.span.start base).Reads d t c') : Spells IsTypeRef c t c' := by
  simp only [bangOr] at h
  rcases (reads_eat_bind (by simp) _ _).mp h with ⟨b, d', hb, hd, hpb, h⟩ | ⟨-, h⟩
  · simp only [if_true, reads_spanFrom_bind] at h
    obtain ⟨-, rfl, rfl⟩ := (reads_pure _ _).mp h
    have hp' := hp.append hpb
    rw [hp'.spanFrom_eq hc (by simp)]
    exact ⟨_, hp', .nonNull hg hb⟩
  · simp only [Bool.false_eq_true, if_false] at h
    obtain ⟨-, rfl, rfl⟩ := (reads_pure _ _).mp h
    exact ⟨ts, hp, .nullable hg⟩

theorem complete_bangOr_nil {start : Nat} (base : TypeRef) (hc : c.Ready)
    (hk : c.kind ≠ .punctuator .bang) : (bangOr start base).Reads c base c := by
  refine (reads_eat_bind (by simp) _ _).mpr (Or.inr ⟨hk, ?_⟩)
  simp only [Bool.false_eq_true, if_false]
  exact (reads_pure _ _).mpr ⟨hc, rfl, rfl⟩

theorem complete_bangOr_cons {b : Token} {start : Nat} (base : TypeRef) (hc : c.Ready)
    (hb : b.kind = .punctuator .bang) (hp : Passed c [b] c') :
    (bangOr start base).Reads c (base.nonNull ⟨start, max c'.consumedTo start⟩) c' := by
  refine (reads_eat_bind (by simp) _ _).mpr (Or.inl ⟨b, c', hb, hc, hp, ?_⟩)
  simp only [if_true, reads_spanFrom_bind]
  exact (reads_pure _ _).mpr ⟨hp.ready hc, rfl, rfl⟩

theorem reads_typeRefStep {inner : Parser TypeRef} {d : Cursor} {ts : List Token} {base t : TypeRef}
    (hinner : ∀ e : Cursor, e.upcoming.length < c.upcoming.length →
      Parses inner IsTypeRef (· ≠ .punctuator .bang) e)
    (hc : c.Ready) (hp : Passed c ts d) (hg : IsNullable ts base)
    (h : (bangOr c.span.start base).Reads d t c') : (typeRefStep inner).Reads c t c' := by
  simp only [typeRefStep, reads_offset_bind]
  cases hg with
  | named hn =>
    have hk := Spells.kind ⟨ts, hp, hn⟩ opens_name
    refine (reads_eat_bind (by simp) _ _).mpr (Or.inr ⟨?_, ?_⟩)
    · intro he
      rw [he] at hk
      cases hk
    · simp only [Bool.false_eq_true, if_false]
      exact (reads_bind _ _ _).mpr ⟨_, d, (parses_name c).complete hc ⟨ts, hp, hn⟩ trivial, h⟩
  | @list o cl ts t ho ht hcl =>
    have hspan := hp.spanFrom_eq hc (by simp)
    simp only [List.append_assoc, passed_append_iff] at hp
    obtain ⟨c₁, hpo, c₂, hpt, hpc⟩ := hp
    have hc₁ := hpo.ready hc
    have hk₂ : c₂.kind ≠ .punctuator .bang := by simp [hpc.kind_eq, hcl]
    refine (reads_eat_bind (by simp) _ _).mpr (Or.inl ⟨o, c₁, ho, hc, hpo, ?_⟩)
    simp only [if_true]
    refine (reads_bind _ _ _).mpr ⟨t, c₂,
      (hinner c₁ (hpo.length_lt (by simp))).complete hc₁ ⟨ts, hpt, ht⟩ hk₂, ?_⟩
    refine (reads_expect_bind (by simp) _ _).mpr ⟨cl, d, hcl, hpt.ready hc₁, hpc, ?_⟩
    rw [← hspan] at h
    exact h

theorem parses_typeRef (c : Cursor) :
    Parses typeRef IsTypeRef (· ≠ .punctuator .bang) c := by
  refine parses_nested (fun inner c hinner ↦ ⟨?_, ?_⟩) c
  · intro t c' h
    have hc := h.ready
    simp only [typeRefStep, reads_offset_bind] at h
    rcases (reads_eat_bind (by simp) _ _).mp h with ⟨o, c₁, ho, -, hpo, h⟩ | ⟨-, h⟩
    · simp only [if_true] at h
      obtain ⟨element, c₂, hel, h⟩ := (reads_bind _ _ _).mp h
      obtain ⟨cl, c₃, hcl, -, hpc, h⟩ := (reads_expect_bind (by simp) _ _).mp h
      obtain ⟨ts, hpt, ht⟩ := (hinner c₁ (hpo.length_lt (by simp))).sound hel
      have hp := (hpo.append hpt).append hpc
      simp only [reads_spanFrom_bind, reads_pure_bind, hp.spanFrom_eq hc (by simp)] at h
      exact sound_bangOr hc hp (.list ho ht hcl) h
    · simp only [Bool.false_eq_true, if_false] at h
      obtain ⟨n, c₁, hn, h⟩ := (reads_bind _ _ _).mp h
      obtain ⟨ts, hp, hg⟩ := (parses_name c).sound hn
      exact sound_bangOr hc hp (.named hg) h
  · intro t c' hc hs hf
    obtain ⟨ts, hp, hg⟩ := hs
    cases hg with
    | nullable hg =>
      exact reads_typeRefStep hinner hc hp hg (complete_bangOr_nil _ (hp.ready hc) hf)
    | nonNull hg hb =>
      have hspan := hp.spanFrom_eq hc (by simp)
      obtain ⟨c₁, hpt, hpb⟩ := passed_append_iff.mp hp
      rw [← hspan]
      exact reads_typeRefStep hinner hc hpt hg (complete_bangOr_cons _ (hpt.ready hc) hb hpb)

end SchemaBindings.Sdl
