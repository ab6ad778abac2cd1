import SchemaBindings.Proofs.Sdl.Definitions

namespace SchemaBindings.Sdl

open Cursor Sentence Grammar SchemaBindings.Sdl.Parser

variable {c c' : Cursor}

theorem opens_directiveDefinition (d : Option Description) :
    Opens (IsDirectiveDefinition d) (· = .keyword .directive) := by
  intro _ _ h
  obtain ⟨ht, -, -, -, -, -, -⟩ := h
  exact ⟨_, _, rfl, ht⟩

theorem opens_extension : Opens IsExtension (· = .keyword .extend) := by
  rintro _ _ (⟨he, -⟩ | ⟨he, -⟩) <;> exact ⟨_, _, rfl, he⟩

theorem opens_definition : Opens IsDefinition (startsDefinition ·) := by
  have hdescribed {td ts : List Token} {d : Option Description} (hd : Optional IsDescription td d)
      (h : ∃ t us, ts = t :: us ∧ startsDefinition t.kind) :
      ∃ t us, td ++ ts = t :: us ∧ startsDefinition t.kind := by
    cases hd with
    | absent => exact h
    | present hd =>
      obtain ⟨t, us, rfl, ht⟩ := opens_description _ _ hd
      refine ⟨t, _, rfl, ?_⟩
      unfold isString at ht
      split at ht
      next hk => simp [hk, startsDefinition]
      next hk => simp [hk, startsDefinition]
      next => cases ht
  intro ts x h'
  rcases h' with ⟨hd, hs⟩ | ⟨hd, ht⟩ | ⟨hd, hx⟩ | hx
  · obtain ⟨t, us, he, hk⟩ := opens_schema _ _ _ hs
    exact hdescribed hd ⟨t, us, he, by rw [hk]; decide⟩
  · obtain ⟨t, us, he, hk⟩ := opens_typeDefinition _ _ _ ht
    refine hdescribed hd ⟨t, us, he, ?_⟩
    simp only [List.mem_cons, List.not_mem_nil, or_false] at hk
    rcases hk with hk | hk | hk | hk | hk | hk <;> (rw [hk]; decide)
  · obtain ⟨t, us, he, hk⟩ := opens_directiveDefinition _ _ _ hx
    exact hdescribed hd ⟨t, us, he, by rw [hk]; decide⟩
  · obtain ⟨t, us, he, hk⟩ := opens_extension _ _ hx
    exact ⟨t, us, he, by rw [hk]; decide⟩

theorem endsType_of_startsDefinition {k : TokenKind} (h : startsDefinition k) : EndsType k := by
  unfold startsDefinition at h
  split at h
  next k => cases k <;> simp_all [EndsType, EndsDirectives]
  next => simp [EndsType, EndsDirectives]
  next => simp [EndsType, EndsDirectives]
  next => cases h

theorem sound_definition {o : Option Definition} (h : definition?.Reads c o c') :
    Spells (Present IsDefinition) c o c' := by
  simp only [definition?] at h
  obtain ⟨d, c₁, hd, hrun⟩ := (reads_bind _ _ _).mp h
  obtain ⟨td, hpd, gd⟩ := (parses_description c).sound hd
  rw [reads_kind_bind] at hrun
  split at hrun
  next hk =>
    obtain ⟨s, c₂, hs, hr⟩ := (reads_bind _ _ _).mp hrun
    obtain ⟨-, rfl, rfl⟩ := (reads_pure _ _).mp hr
    obtain ⟨ts, hps, gs⟩ := (parses_schema hk d).sound hs
    exact ⟨_, hpd.append hps, .mk (.schema gd gs)⟩
  next hk =>
    obtain ⟨x, c₂, hx, hr⟩ := (reads_bind _ _ _).mp hrun
    obtain ⟨-, rfl, rfl⟩ := (reads_pure _ _).mp hr
    obtain ⟨ts, hpx, gx⟩ := (parses_directiveDefinition hk d).sound hx
    exact ⟨_, hpd.append hpx, .mk (.directive gd gx)⟩
  next hk =>
    cases d with
    | some d =>
      obtain ⟨_, c₂, hr, -⟩ := (reads_bind _ _ _).mp hrun
      exact absurd hr (not_reads_report _ _)
    | none =>
      cases gd
      obtain rfl := passed_nil_iff.mp hpd
      obtain ⟨ts, hp, ⟨gx⟩⟩ := sound_extension hk hrun
      exact ⟨ts, hp, .mk (.extension gx)⟩
  next =>
    obtain ⟨o', c₂, ho, hr⟩ := (reads_bind _ _ _).mp hrun
    rcases sound_typeDefinition ho with ⟨t, rfl, ts, hpt, gt⟩ | ⟨rfl, rfl⟩
    · obtain ⟨-, rfl, rfl⟩ := (reads_pure _ _).mp hr
      exact ⟨_, hpd.append hpt, .mk (.type gd gt)⟩
    · exact absurd hr (not_reads_unexpected_bind _ _ _)

theorem complete_definition {x : Definition} (hc : c.Ready) (h : Spells IsDefinition c x c')
    (hf : EndsType c'.kind) : definition?.Reads c (some x) c' := by
  obtain ⟨ts, hp, hg⟩ := h
  have hc' := hp.ready hc
  simp only [definition?]
  have hpipe : c'.kind ≠ .punctuator .pipe := hf.2.2.2.1
  cases hg with
  | @schema td ts d s gd gs =>
    obtain ⟨c₁, hpd, hps⟩ := passed_append_iff.mp hp
    have hk := Spells.kind ⟨_, hps, gs⟩ (opens_schema d)
    refine (reads_bind _ _ _).mpr ⟨d, c₁, (parses_description c).complete hc ⟨_, hpd, gd⟩
      (by simp [hk, isString]), ?_⟩
    simp only [reads_kind_bind, hk]
    refine (reads_bind _ _ _).mpr
      ⟨s, c', (parses_schema hk d).complete (hpd.ready hc) ⟨_, hps, gs⟩ hf, ?_⟩
    exact (reads_pure _ _).mpr ⟨hc', rfl, rfl⟩
  | @type td ts d t gd gt =>
    obtain ⟨c₁, hpd, hpt⟩ := passed_append_iff.mp hp
    have hk := Spells.kind ⟨_, hpt, gt⟩ (opens_typeDefinition d)
    simp only [List.mem_cons, List.not_mem_nil, or_false] at hk
    have hstring : ¬ isString c₁.kind := by
      rcases hk with hk | hk | hk | hk | hk | hk <;> simp [hk, isString]
    refine (reads_bind _ _ _).mpr
      ⟨d, c₁, (parses_description c).complete hc ⟨_, hpd, gd⟩ hstring, ?_⟩
    have ht := complete_typeDefinition (hpd.ready hc) ⟨_, hpt, gt⟩ hf
    rw [reads_kind_bind]
    rcases hk with hk | hk | hk | hk | hk | hk
    all_goals
      simp only [hk]
      exact (reads_bind _ _ _).mpr ⟨some t, c', ht, (reads_pure _ _).mpr ⟨hc', rfl, rfl⟩⟩
  | @directive td ts d x gd gx =>
    obtain ⟨c₁, hpd, hpx⟩ := passed_append_iff.mp hp
    have hk := Spells.kind ⟨_, hpx, gx⟩ (opens_directiveDefinition d)
    refine (reads_bind _ _ _).mpr ⟨d, c₁, (parses_description c).complete hc ⟨_, hpd, gd⟩
      (by simp [hk, isString]), ?_⟩
    simp only [reads_kind_bind, hk]
    refine (reads_bind _ _ _).mpr ⟨x, c',
      (parses_directiveDefinition hk d).complete (hpd.ready hc) ⟨_, hpx, gx⟩ hpipe, ?_⟩
    exact (reads_pure _ _).mpr ⟨hc', rfl, rfl⟩
  | extension gx =>
    have hk := Spells.kind ⟨_, hp, gx⟩ opens_extension
    refine (reads_bind _ _ _).mpr ⟨none, c, (parses_description c).complete hc
      ⟨[], passed_nil_iff.mpr rfl, .absent⟩ (by simp [hk, isString]), ?_⟩
    simp only [reads_kind_bind, hk]
    exact complete_extension hc ⟨_, hp, gx⟩ hf

theorem parses_definition (c : Cursor) :
    Parses definition? (Present IsDefinition) EndsType c where
  sound := sound_definition
  complete := by
    intro _ c' hc hs hf
    obtain ⟨ts, hp, ⟨hg⟩⟩ := hs
    exact complete_definition hc ⟨ts, hp, hg⟩ hf

theorem opens_presentDefinition : Opens (Present IsDefinition) (startsDefinition ·) := by
  intro _ _ h'
  obtain ⟨h⟩ := h'
  exact opens_definition _ _ h

theorem parses_definitionOrSkip (c : Cursor) :
    Parses definitionOrSkip (Present IsDefinition) EndsType c where
  sound := by
    intro o c' h
    obtain ⟨o', c₁, ho, hr⟩ := (reads_bind _ _ _).mp h
    obtain ⟨ts, hp, ⟨hg⟩⟩ := ((parses_definition c).progress opens_presentDefinition).sound ho
    obtain ⟨-, rfl, rfl⟩ := (reads_pure _ _).mp hr
    exact ⟨ts, hp, .mk hg⟩
  complete := by
    intro _ c' hc hs hf
    obtain ⟨ts, hp, ⟨hg⟩⟩ := hs
    refine (reads_bind _ _ _).mpr ⟨_, c', ((parses_definition c).progress
      opens_presentDefinition).complete hc ⟨ts, hp, .mk hg⟩ hf, ?_⟩
    exact (reads_pure _ _).mpr ⟨hp.ready hc, rfl, rfl⟩

theorem parses_definitions (c : Cursor) :
    Parses (many (fun _ ↦ true) definitionOrSkip) (Many (Present IsDefinition))
      (· = .endOfInput) c := by
  refine parses_many opens_presentDefinition (fun d _ _ ↦ parses_definitionOrSkip d)
    (fun _ _ ↦ rfl) (fun _ hk ↦ Or.inl hk) (fun _ hk ↦ endsType_of_startsDefinition hk) ?_
  intro k he
  obtain rfl := he
  simp [EndsType, EndsDirectives]

end SchemaBindings.Sdl
