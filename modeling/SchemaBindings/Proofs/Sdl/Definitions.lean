import SchemaBindings.Proofs.Sdl.TypeDefinitions

namespace SchemaBindings.Sdl

open Cursor Sentence Grammar SchemaBindings.Sdl.Parser

variable {c c' : Cursor}

theorem operationKind?_eq_some_iff (k : TokenKind) (o : OperationKind) :
    operationKind? k = some o ↔ k = .keyword (keywordOf o) := by
  constructor
  · intro h
    unfold operationKind? at h
    split at h <;> cases h <;> rfl
  · rintro rfl
    cases o <;> rfl

theorem opens_operationType :
    Opens (Present IsOperationType) fun k ↦ ∃ o, k = .keyword (keywordOf o) := by
  intro _ _ h
  obtain ⟨⟨hk, -, -⟩⟩ := h
  exact ⟨_, _, rfl, _, hk⟩

theorem parses_operationType (c : Cursor) :
    Parses operationType? (Present IsOperationType) (fun _ ↦ True) c where
  sound := by
    intro x c' h
    have hc := h.ready
    simp only [operationType?, reads_offset_bind, reads_kind_bind] at h
    split at h
    next => exact absurd h (not_reads_unexpected_bind _ _ _)
    next o ho =>
      have hk := (operationKind?_eq_some_iff _ _).mp ho
      obtain ⟨t, c₁, ht, -, hpt, h⟩ := (reads_advance_bind (by simp [hk]) _ _).mp h
      obtain ⟨u, c₂, hu, -, hpu, h⟩ := (reads_expect_bind (by simp) _ _).mp h
      obtain ⟨n, c₃, hn, h⟩ := (reads_bind _ _ _).mp h
      obtain ⟨-, rfl, rfl⟩ := (reads_spanFrom_pure _ (fun s ↦ some (OperationType.mk o n s)) _).mp h
      obtain ⟨tn, hpn, gn⟩ := (parses_name c₂).sound hn
      have hp := (hpt.append hpu).append hpn
      rw [hp.spanFrom_eq hc (by simp)]
      exact ⟨_, hp, .mk (.mk (ht.trans hk) hu gn)⟩
  complete := by
    intro x c' hc hs _
    obtain ⟨_, hp, ⟨⟨ht, hu, gn⟩⟩⟩ := hs
    rw [← hp.spanFrom_eq hc (by simp)]
    have hc' := hp.ready hc
    simp only [List.append_assoc, passed_append_iff] at hp
    obtain ⟨c₁, hpt, c₂, hpu, hpn⟩ := hp
    have hc₁ := hpt.ready hc
    have hk := hpt.kind_eq.trans ht
    simp only [operationType?, reads_offset_bind, reads_kind_bind,
      (operationKind?_eq_some_iff _ _).mpr hk]
    refine (reads_advance_bind (by simp [hk]) _ _).mpr ⟨_, c₁, hpt.kind_eq.symm, hc, hpt, ?_⟩
    refine (reads_expect_bind (by simp) _ _).mpr ⟨_, c₂, hu, hc₁, hpu, ?_⟩
    refine (reads_bind _ _ _).mpr
      ⟨_, c', (parses_name c₂).complete (hpu.ready hc₁) ⟨_, hpn, gn⟩ trivial, ?_⟩
    exact (reads_spanFrom_pure _ (fun s ↦ some (OperationType.mk _ _ s)) _).mpr ⟨hc', rfl, rfl⟩

theorem itemsOf_operationType (c : Cursor) :
    ItemsOf .braceClose operationType? (Present IsOperationType)
      (fun k ↦ ∃ o, k = .keyword (keywordOf o)) (fun _ ↦ True) c := by
  refine ⟨opens_operationType, fun d _ ↦ parses_operationType d, ?_, fun _ _ ↦ trivial, trivial⟩
  intro _ h
  obtain ⟨o, rfl⟩ := h
  simp

theorem enclosed_present_iff {α : Type} {opening closing : Punctuator} {G : Phrase α}
    {ts : List Token} {os : List (Option α)} :
    Enclosed opening closing (Present G) ts os ↔
      ∃ as, os = as.map some ∧ Enclosed opening closing G ts as := by
  constructor
  · intro h'
    rcases h' with _ | ⟨ho, h, hc⟩
    · exact ⟨[], rfl, .absent⟩
    · obtain ⟨as, rfl, hg⟩ := many_present_iff.mp h
      exact ⟨as, rfl, .present (.mk ho hg hc)⟩
  · intro h'
    obtain ⟨as, rfl, _ | ⟨ho, h, hc⟩⟩ := h'
    · exact .absent
    · exact .present (.mk ho (many_present_iff.mpr ⟨as, rfl, h⟩) hc)

theorem filterMap_map_some {α : Type} (as : List α) : (as.map some).filterMap id = as := by
  rw [List.filterMap_map]
  exact List.filterMap_some

theorem parses_schema (hk : c.kind = .keyword .schema) (d : Option Description) :
    Parses (schema d) (IsSchema d) EndsType c where
  sound := by
    intro x c' h
    have hc := h.ready
    simp only [schema, reads_offset_bind] at h
    obtain ⟨t, c₁, ht, -, hpt, h⟩ := (reads_advance_bind (by simp [hk]) _ _).mp h
    obtain ⟨ds, c₂, hds, h⟩ := (reads_bind _ _ _).mp h
    obtain ⟨os, c₃, hos, h⟩ := (reads_bind _ _ _).mp h
    obtain ⟨-, rfl, rfl⟩ := (reads_spanFrom_pure _ _ _).mp h
    obtain ⟨td, hpd, gd⟩ := (parses_directives c₁).sound hds
    obtain ⟨tp, hpo, go⟩ := (parses_enclosed (itemsOf_operationType c₂)).sound hos
    obtain ⟨operations, rfl, gp⟩ := enclosed_present_iff.mp go
    have hp := (hpt.append hpd).append hpo
    rw [hp.spanFrom_eq hc (by simp), filterMap_map_some]
    exact ⟨_, hp, .mk (ht.trans hk) gd gp⟩
  complete := by
    intro x c' hc hs h'
    obtain ⟨_, hp, ⟨ht, gd, go⟩⟩ := hs
    obtain ⟨hdir, hbrace, -⟩ := h'
    rw [← hp.spanFrom_eq hc (by simp)]
    have hc' := hp.ready hc
    simp only [List.append_assoc, passed_append_iff] at hp
    obtain ⟨c₁, hpt, c₂, hpd, hpo⟩ := hp
    have hc₁ := hpt.ready hc
    have hends : EndsDirectives c₂.kind := by
      rcases Spells.kind_enclosed ⟨_, hpo, go⟩ with hk | rfl
      · simp [hk, EndsDirectives]
      · exact hdir
    simp only [schema, reads_offset_bind]
    refine (reads_advance_bind (by simp [hk]) _ _).mpr ⟨_, c₁, hpt.kind_eq.symm, hc, hpt, ?_⟩
    refine (reads_bind _ _ _).mpr
      ⟨_, c₂, (parses_directives c₁).complete hc₁ ⟨_, hpd, gd⟩ hends, ?_⟩
    refine (reads_bind _ _ _).mpr ⟨_, c', (parses_enclosed (itemsOf_operationType c₂)).complete
      (hpd.ready hc₁) ⟨_, hpo, enclosed_present_iff.mpr ⟨_, rfl, go⟩⟩ hbrace, ?_⟩
    refine (reads_spanFrom_pure _ _ _).mpr ⟨hc', ?_, rfl⟩
    rw [filterMap_map_some]

theorem ofText?_eq_some_iff (word : String) (l : DirectiveLocation) :
    DirectiveLocation.ofText? word = some l ↔ word = l.text := by
  constructor
  · intro h
    have hl := List.find?_some h
    simp only [beq_iff_eq] at hl
    exact hl.symm
  · rintro rfl
    exact DirectiveLocation.ofText?_text l

theorem sound_location {o : Option DirectiveLocation} (h : location?.Reads c o c') :
    ∃ l, o = some l ∧ Spells IsLocation c l c' := by
  have hc := h.ready
  simp only [location?, word, reads_look_bind] at h
  split at h
  next l hl =>
    have htext := (ofText?_eq_some_iff _ _).mp hl
    have hk : c.kind ≠ .endOfInput := by
      intro hk
      have hu : c.upcoming = [] := List.isEmpty_iff.mp (hc.atEnd_iff.mpr hk)
      simp only [text, hu] at htext
      cases l <;> exact absurd htext (by decide)
    obtain ⟨t, c₁, -, -, hp, h⟩ := (reads_advance_bind hk _ _).mp h
    obtain ⟨-, rfl, rfl⟩ := (reads_pure _ _).mp h
    refine ⟨l, rfl, [t], hp, .mk ?_⟩
    rw [← hp.text_eq, ← htext, String.toList_ofList]
  next => exact absurd h (not_reads_unexpected_bind _ _ _)

theorem complete_location {l : DirectiveLocation} (hc : c.Ready) (h : Spells IsLocation c l c') :
    location?.Reads c (some l) c' := by
  obtain ⟨_, hp, @⟨t, _, ht⟩⟩ := h
  have hl : DirectiveLocation.ofText? (.ofList c.text) = some l := by
    rw [ofText?_eq_some_iff, hp.text_eq, ht, String.ofList_toList]
  have hk : c.kind ≠ .endOfInput := by
    rw [hp.kind_eq]
    exact hc.inOrder.kind_ne t (by simp [hp.upcoming])
  simp only [location?, word, reads_look_bind, hl]
  exact (reads_advance_bind hk _ _).mpr ⟨t, c', hp.kind_eq.symm, hc, hp,
    (reads_pure _ _).mpr ⟨hp.ready hc, rfl, rfl⟩⟩

theorem Spells.kind_location {l : DirectiveLocation} (hc : c.Ready) (h : Spells IsLocation c l c') :
    c.kind ≠ .punctuator .pipe := by
  obtain ⟨_, hp, @⟨t, _, ht⟩⟩ := h
  intro hk
  have hpipe := hc.inOrder.text_eq t (by simp [hp.upcoming]) _ (hp.kind_eq ▸ hk)
  rw [ht] at hpipe
  cases l <;> exact absurd hpipe (by decide)

theorem parses_moreLocations (c : Cursor) :
    Parses (collect do if ← eat (.punctuator .pipe) then location? else return none)
      (Many (Preceded (.punctuator .pipe) IsLocation)) (· ≠ .punctuator .pipe) c := by
  refine parses_collect (fun _ ↦ True) (opens_preceded _) ?_ ?_ ?_ ?_ (fun _ _ ↦ trivial)
    fun _ _ ↦ trivial
  · intro d c' _ h
    rcases (reads_eat_bind (by simp) _ _).mp h with ⟨t, c₁, -, -, -, h⟩ | ⟨-, h⟩
    · obtain ⟨l, hl, -⟩ := sound_location h
      cases hl
    · exact ((reads_pure _ _).mp h).2.2
  · intro d l c' _ h
    rcases (reads_eat_bind (by simp) _ _).mp h with ⟨t, c₁, ht, -, hpt, h⟩ | ⟨-, h⟩
    · obtain ⟨l, hl, ts, hp, hg⟩ := sound_location h
      cases hl
      exact ⟨_, hpt.append hp, .mk ht hg⟩
    · cases ((reads_pure _ _).mp h).2.1
  · intro d hd hk
    exact (reads_eat_bind (by simp) _ _).mpr (Or.inr ⟨hk, (reads_pure _ _).mpr ⟨hd, rfl, rfl⟩⟩)
  · intro d l c' _ hd hs _
    obtain ⟨_, hp, ⟨ht, hg⟩⟩ := hs
    obtain ⟨c₁, hpt, hp⟩ := passed_append_iff.mp hp
    exact (reads_eat_bind (by simp) _ _).mpr
      (Or.inl ⟨_, c₁, ht, hd, hpt, complete_location (hpt.ready hd) ⟨_, hp, hg⟩⟩)

theorem parses_locations (c : Cursor) :
    Parses locations (Separated .pipe IsLocation) (· ≠ .punctuator .pipe) c where
  sound := by
    intro ls c' h
    simp only [locations] at h
    obtain ⟨b, c₁, hb, h⟩ := (reads_bind _ _ _).mp h
    obtain ⟨o, c₂, ho, h⟩ := (reads_bind _ _ _).mp h
    obtain ⟨l, rfl, tl, hpl, gl⟩ := sound_location ho
    obtain ⟨ms, c₃, hms, h⟩ := (reads_bind _ _ _).mp h
    obtain ⟨-, rfl, rfl⟩ := (reads_pure _ _).mp h
    obtain ⟨tb, hpb, gb⟩ := (parses_flag (by simp) c).sound hb
    obtain ⟨tm, hpm, gm⟩ := (parses_moreLocations c₂).sound hms
    exact ⟨_, hpb.append (hpl.append hpm), .mk gb (.mk gl gm)⟩
  complete := by
    intro ls c' hc hs hf
    obtain ⟨_, hp, ⟨gb, ⟨gl, gm⟩⟩⟩ := hs
    have hc' := hp.ready hc
    simp only [passed_append_iff] at hp
    obtain ⟨c₁, hpb, c₂, hpl, hpm⟩ := hp
    have hc₁ := hpb.ready hc
    simp only [locations]
    refine (reads_bind _ _ _).mpr ⟨_, c₁, (parses_flag (by simp) c).complete hc ⟨_, hpb, gb⟩
      (Spells.kind_location hc₁ ⟨_, hpl, gl⟩), ?_⟩
    refine (reads_bind _ _ _).mpr ⟨_, c₂, complete_location hc₁ ⟨_, hpl, gl⟩, ?_⟩
    refine (reads_bind _ _ _).mpr ⟨_, c',
      (parses_moreLocations c₂).complete (hpl.ready hc₁) ⟨_, hpm, gm⟩ hf, ?_⟩
    exact (reads_pure _ _).mpr ⟨hc', rfl, rfl⟩

theorem parses_directiveDefinition (hk : c.kind = .keyword .directive) (d : Option Description) :
    Parses (directiveDefinition d) (IsDirectiveDefinition d) (· ≠ .punctuator .pipe) c where
  sound := by
    intro x c' h
    have hc := h.ready
    simp only [directiveDefinition, reads_offset_bind] at h
    obtain ⟨t, c₁, ht, -, hpt, h⟩ := (reads_advance_bind (by simp [hk]) _ _).mp h
    obtain ⟨a, c₂, ha, -, hpa, h⟩ := (reads_expect_bind (by simp) _ _).mp h
    obtain ⟨n, c₃, hn, h⟩ := (reads_bind _ _ _).mp h
    obtain ⟨as, c₄, has, h⟩ := (reads_bind _ _ _).mp h
    obtain ⟨r, c₅, hr, h⟩ := (reads_bind _ _ _).mp h
    obtain ⟨o, c₆, ho, -, hpo, h⟩ := (reads_expect_bind (by simp) _ _).mp h
    obtain ⟨ls, c₇, hls, h⟩ := (reads_bind _ _ _).mp h
    obtain ⟨-, rfl, rfl⟩ := (reads_spanFrom_pure _ _ _).mp h
    obtain ⟨tn, hpn, gn⟩ := (parses_name c₂).sound hn
    obtain ⟨ta, hpas, gas⟩ := (parses_arguments c₃).sound has
    obtain ⟨tr, hpr, gr⟩ := (parses_flag (by simp) c₄).sound hr
    obtain ⟨tl, hpl, gl⟩ := (parses_locations c₆).sound hls
    have hp := (((((hpt.append hpa).append hpn).append hpas).append hpr).append hpo).append hpl
    rw [hp.spanFrom_eq hc (by simp)]
    exact ⟨_, hp, .mk (ht.trans hk) ha gn gas gr ho gl⟩
  complete := by
    intro x c' hc hs hf
    obtain ⟨_, hp, ⟨ht, ha, gn, gas, gr, ho, gl⟩⟩ := hs
    rw [← hp.spanFrom_eq hc (by simp)]
    have hc' := hp.ready hc
    simp only [List.append_assoc, passed_append_iff] at hp
    obtain ⟨c₁, hpt, c₂, hpa, c₃, hpn, c₄, hpas, c₅, hpr, c₆, hpo, hpl⟩ := hp
    have hc₁ := hpt.ready hc
    have hc₂ := hpa.ready hc₁
    have hc₃ := hpn.ready hc₂
    have hc₄ := hpas.ready hc₃
    have hc₅ := hpr.ready hc₄
    have hon : c₅.kind = .keyword .on := hpo.kind_eq.trans ho
    have hparen : c₄.kind ≠ .punctuator .parenOpen := by
      cases gr with
      | absent => simp [← passed_nil_iff.mp hpr, hon]
      | present hr => simp [hpr.kind_eq, hr]
    simp only [directiveDefinition, reads_offset_bind]
    refine (reads_advance_bind (by simp [hk]) _ _).mpr ⟨_, c₁, hpt.kind_eq.symm, hc, hpt, ?_⟩
    refine (reads_expect_bind (by simp) _ _).mpr ⟨_, c₂, ha, hc₁, hpa, ?_⟩
    refine (reads_bind _ _ _).mpr ⟨_, c₃, (parses_name c₂).complete hc₂ ⟨_, hpn, gn⟩ trivial, ?_⟩
    refine (reads_bind _ _ _).mpr
      ⟨_, c₄, (parses_arguments c₃).complete hc₃ ⟨_, hpas, gas⟩ hparen, ?_⟩
    refine (reads_bind _ _ _).mpr ⟨_, c₅,
      (parses_flag (by simp) c₄).complete hc₄ ⟨_, hpr, gr⟩ (by simp [hon]), ?_⟩
    refine (reads_expect_bind (by simp) _ _).mpr ⟨_, c₆, ho, hc₅, hpo, ?_⟩
    refine (reads_bind _ _ _).mpr
      ⟨_, c', (parses_locations c₆).complete (hpo.ready hc₅) ⟨_, hpl, gl⟩ hf, ?_⟩
    exact (reads_spanFrom_pure _ _ _).mpr ⟨hc', rfl, rfl⟩

theorem covered_cons {e : Token} {ts : List Token} (hts : ts ≠ []) :
    covered ([e] ++ ts) = ⟨e.span.start, (covered ts).stop⟩ := by
  obtain ⟨t, us, rfl⟩ := List.exists_cons_of_ne_nil hts
  have hlast : (([e] ++ (t :: us)).getLast?) = (t :: us).getLast? := by
    rw [List.getLast?_append]
    simp [List.getLast?_eq_getLast_of_ne_nil hts]
  simp only [covered, hlast, List.getLast?_eq_getLast_of_ne_nil hts]
  rfl

theorem opens_schema (d : Option Description) : Opens (IsSchema d) (· = .keyword .schema) := by
  intro _ _ h
  obtain ⟨ht, -, -⟩ := h
  exact ⟨_, _, rfl, ht⟩

theorem span_typeDefinition {d : Option Description} {ts : List Token} {t : TypeDefinition}
    (h : IsTypeDefinition d ts t) : t.span = covered ts := by
  cases h
  rfl

theorem sound_extension {o : Option Definition} (hk : c.kind = .keyword .extend)
    (h : extension?.Reads c o c') : Spells (Present IsExtension) c o c' := by
  have hc := h.ready
  simp only [extension?, reads_offset_bind] at h
  obtain ⟨e, c₁, he, -, hpe, h⟩ := (reads_advance_bind (by simp [hk]) _ _).mp h
  rw [reads_kind_bind] at h
  split at h
  next hs =>
    obtain ⟨s, c₂, hs, h⟩ := (reads_bind _ _ _).mp h
    obtain ⟨-, rfl, rfl⟩ :=
      (reads_spanFrom_pure _ (fun sp ↦ some (Definition.schemaExtension { s with span := sp })) _).mp h
    obtain ⟨ts, hps, gs⟩ := (parses_schema ‹_› none).sound hs
    have hp := hpe.append hps
    rw [hp.spanFrom_eq hc (by simp)]
    exact ⟨_, hp, .mk (.schema (he.trans hk) gs)⟩
  next =>
    obtain ⟨o', c₂, ho, hrest⟩ := (reads_bind _ _ _).mp h
    rcases sound_typeDefinition ho with ⟨t, rfl, ts, hpt, gt⟩ | ⟨rfl, rfl⟩
    · obtain ⟨-, rfl, rfl⟩ := (reads_pure _ _).mp hrest
      obtain ⟨u, us, rfl, -⟩ := opens_typeDefinition none _ _ gt
      rw [span_typeDefinition gt, hpe.span_eq, ← covered_cons (by simp)]
      exact ⟨_, hpe.append hpt, .mk (.type (he.trans hk) gt)⟩
    · exact absurd hrest (not_reads_unexpected_bind _ _ _)

theorem complete_extension {x : Definition} (hc : c.Ready) (h : Spells IsExtension c x c')
    (hf : EndsType c'.kind) : extension?.Reads c (some x) c' := by
  obtain ⟨_, hp, hg⟩ := h
  have hc' := hp.ready hc
  simp only [extension?, reads_offset_bind]
  cases hg with
  | schema he gs =>
    rw [← hp.spanFrom_eq hc (by simp)]
    obtain ⟨c₁, hpe, hps⟩ := passed_append_iff.mp hp
    have hk₁ := Spells.kind ⟨_, hps, gs⟩ (opens_schema none)
    refine (reads_advance_bind (by simp [hpe.kind_eq, he]) _ _).mpr
      ⟨_, c₁, hpe.kind_eq.symm, hc, hpe, ?_⟩
    rw [reads_kind_bind, if_pos hk₁]
    refine (reads_bind _ _ _).mpr
      ⟨_, c', (parses_schema hk₁ none).complete (hpe.ready hc) ⟨_, hps, gs⟩ hf, ?_⟩
    exact (reads_spanFrom_pure _
      (fun sp ↦ some (Definition.schemaExtension { (_ : SchemaDefinition) with span := sp })) _).mpr
        ⟨hc', rfl, rfl⟩
  | type he gt =>
    obtain ⟨c₁, hpe, hpt⟩ := passed_append_iff.mp hp
    have hk₁ := Spells.kind ⟨_, hpt, gt⟩ (opens_typeDefinition none)
    refine (reads_advance_bind (by simp [hpe.kind_eq, he]) _ _).mpr
      ⟨_, c₁, hpe.kind_eq.symm, hc, hpe, ?_⟩
    rw [reads_kind_bind, if_neg (by rintro hs; simp [hs] at hk₁)]
    refine (reads_bind _ _ _).mpr
      ⟨_, c', complete_typeDefinition (hpe.ready hc) ⟨_, hpt, gt⟩ hf, ?_⟩
    obtain ⟨u, us, rfl, -⟩ := opens_typeDefinition none _ _ gt
    rw [covered_cons (by simp), ← span_typeDefinition gt, ← hpe.span_eq]
    exact (reads_pure _ _).mpr ⟨hc', rfl, rfl⟩

end SchemaBindings.Sdl
