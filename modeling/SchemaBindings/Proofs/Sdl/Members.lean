import SchemaBindings.Proofs.Sdl.Values

namespace SchemaBindings.Sdl

open Cursor Sentence Grammar SchemaBindings.Sdl.Parser

variable {c c' : Cursor}

theorem ne_punctuator_of_isName {k : TokenKind} (h : k.isName) (p : Punctuator) :
    k ≠ .punctuator p := by
  rintro rfl
  cases h

theorem not_isString_of_isName {k : TokenKind} (h : k.isName) : ¬ isString k := by
  cases k <;> simp_all [isString, TokenKind.isName]

theorem opens_argument : Opens IsArgument (·.isName) := by
  intro _ _ h'
  obtain ⟨h⟩ := h'
  exact opens_entry _ _ _ h

theorem parses_argument (c : Cursor) : Parses argument IsArgument (fun _ ↦ True) c where
  sound := by
    intro a c' h
    have hc := h.ready
    simp only [argument, reads_offset_bind] at h
    obtain ⟨n, c₁, hn, h⟩ := (reads_bind _ _ _).mp h
    obtain ⟨t, c₂, ht, -, hpt, h⟩ := (reads_expect_bind (by simp) _ _).mp h
    obtain ⟨v, c₃, hv, h⟩ := (reads_bind _ _ _).mp h
    obtain ⟨-, rfl, rfl⟩ := (reads_spanFrom_pure _ _ _).mp h
    obtain ⟨tn, hpn, gn⟩ := (parses_name c).sound hn
    obtain ⟨tv, hpv, gv⟩ := (parses_value false c₂).sound hv
    have hp := (hpn.append hpt).append hpv
    rw [hp.spanFrom_eq hc (by simp)]
    exact ⟨_, hp, .mk (.mk gn ht gv)⟩
  complete := by
    intro a c' hc hs _
    obtain ⟨ts, hp, ⟨⟨gn, ht, gv⟩⟩⟩ := hs
    rw [← hp.spanFrom_eq hc (by simp)]
    have hc' := hp.ready hc
    simp only [List.append_assoc, passed_append_iff] at hp
    obtain ⟨c₁, hpn, c₂, hpt, hpv⟩ := hp
    have hc₁ := hpn.ready hc
    simp only [argument, reads_offset_bind]
    refine (reads_bind _ _ _).mpr ⟨_, c₁, (parses_name c).complete hc ⟨_, hpn, gn⟩ trivial, ?_⟩
    refine (reads_expect_bind (by simp) _ _).mpr ⟨_, c₂, ht, hc₁, hpt, ?_⟩
    refine (reads_bind _ _ _).mpr ⟨_, c',
      (parses_value false c₂).complete (hpt.ready hc₁) ⟨_, hpv, gv⟩ trivial, ?_⟩
    exact (reads_spanFrom_pure _ _ _).mpr ⟨hc', rfl, rfl⟩

theorem opens_directive : Opens IsDirective (· = .punctuator .at) := by
  intro _ _ h'
  obtain ⟨h, -, -⟩ := h'
  exact ⟨_, _, rfl, h⟩

theorem parses_directiveArguments (c : Cursor) :
    Parses (enclosed .parenOpen .parenClose (upTo .parenClose argument))
      (Enclosed .parenOpen .parenClose IsArgument) (· ≠ .punctuator .parenOpen) c := by
  have hitems : ItemsOf .parenClose argument IsArgument (·.isName) (fun _ ↦ True) c :=
    ⟨opens_argument, fun d _ ↦ parses_argument d, fun k hk ↦ ne_punctuator_of_isName hk _,
      fun _ _ ↦ trivial, trivial⟩
  exact parses_enclosed hitems

theorem parses_directive (hk : c.kind = .punctuator .at) :
    Parses directive IsDirective (· ≠ .punctuator .parenOpen) c where
  sound := by
    intro x c' h
    have hc := h.ready
    simp only [directive, reads_offset_bind] at h
    obtain ⟨a, c₁, ha, -, hpa, h⟩ := (reads_advance_bind (by simp [hk]) _ _).mp h
    obtain ⟨n, c₂, hn, h⟩ := (reads_bind _ _ _).mp h
    obtain ⟨as, c₃, has, h⟩ := (reads_bind _ _ _).mp h
    obtain ⟨-, rfl, rfl⟩ := (reads_spanFrom_pure _ _ _).mp h
    obtain ⟨tn, hpn, gn⟩ := (parses_name c₁).sound hn
    obtain ⟨ta, hpas, gas⟩ := (parses_directiveArguments c₂).sound has
    have hp := (hpa.append hpn).append hpas
    rw [hp.spanFrom_eq hc (by simp)]
    exact ⟨_, hp, .mk (ha.trans hk) gn gas⟩
  complete := by
    intro x c' hc hs hf
    obtain ⟨ts, hp, ⟨ha, gn, gas⟩⟩ := hs
    rw [← hp.spanFrom_eq hc (by simp)]
    have hc' := hp.ready hc
    simp only [List.append_assoc, passed_append_iff] at hp
    obtain ⟨c₁, hpa, c₂, hpn, hpas⟩ := hp
    have hc₁ := hpa.ready hc
    simp only [directive, reads_offset_bind]
    refine (reads_advance_bind (by simp [hk]) _ _).mpr ⟨_, c₁, ha.trans hk.symm, hc, hpa, ?_⟩
    refine (reads_bind _ _ _).mpr
      ⟨_, c₂, (parses_name c₁).complete hc₁ ⟨_, hpn, gn⟩ trivial, ?_⟩
    refine (reads_bind _ _ _).mpr ⟨_, c',
      (parses_directiveArguments c₂).complete (hpn.ready hc₁) ⟨_, hpas, gas⟩ hf, ?_⟩
    exact (reads_spanFrom_pure _ _ _).mpr ⟨hc', rfl, rfl⟩

/-- What may stand behind directives. -/
def EndsDirectives (k : TokenKind) : Prop :=
  k ≠ .punctuator .at ∧ k ≠ .punctuator .parenOpen

theorem parses_directives (c : Cursor) :
    Parses directives (Many IsDirective) EndsDirectives c := by
  refine parses_many opens_directive (fun d _ hd ↦ parses_directive (by simpa using hd)) ?_ ?_ ?_ ?_
  · intro k he
    obtain rfl := he
    rfl
  · exact fun k hk ↦ Or.inr (by simpa using hk.1)
  · intro k he
    obtain rfl := he
    simp
  · exact fun k hk ↦ hk.2

theorem kind_directives {d : Cursor} {ds : List Directive} {P : TokenKind → Prop}
    (h : Spells (Many IsDirective) c ds d) (hat : P (.punctuator .at)) (hend : P d.kind) :
    P c.kind := by
  rcases h.kind_many opens_directive with hk | rfl
  · rwa [hk]
  · exact hend

theorem parses_default (c : Cursor) {f : Option Value → Parser InputValueDefinition}
    {x : InputValueDefinition} :
    (eat (.punctuator .equals) >>= fun b ↦ if b then (some <$> value true) >>= f
      else pure none >>= f).Reads c x c' ↔
    ∃ v d, c.Ready ∧ Spells (Optional (Preceded (.punctuator .equals) (IsValue true))) c v d ∧
      (v = none → c.kind ≠ .punctuator .equals) ∧ (f v).Reads d x c' := by
  rw [reads_eat_bind (by simp)]
  constructor
  · intro h'
    rcases h' with ⟨t, c₁, ht, hc, hp, h⟩ | ⟨hk, h⟩
    · simp only [if_true] at h
      obtain ⟨v, c₂, hv, h⟩ := (reads_bind _ _ _).mp h
      obtain ⟨w, hw, rfl⟩ := (reads_map _ _ _).mp hv
      obtain ⟨ts, hpv, gv⟩ := (parses_value true c₁).sound hw
      exact ⟨_, c₂, hc, ⟨_, hp.append hpv, .present (.mk ht gv)⟩, by simp, h⟩
    · simp only [Bool.false_eq_true, if_false, reads_pure_bind] at h
      exact ⟨none, c, h.ready, ⟨[], passed_nil_iff.mpr rfl, .absent⟩, fun _ ↦ hk, h⟩
  · intro h'
    obtain ⟨v, d, hc, ⟨ts, hp, hg⟩, hk, h⟩ := h'
    cases hg with
    | absent =>
      obtain rfl := passed_nil_iff.mp hp
      exact Or.inr ⟨hk rfl, by simpa [reads_pure_bind] using h⟩
    | present hg =>
      obtain ⟨ht, gv⟩ := hg
      obtain ⟨c₁, hpt, hpv⟩ := passed_append_iff.mp hp
      refine Or.inl ⟨_, c₁, ht, hc, hpt, ?_⟩
      simp only [if_true]
      exact (reads_bind _ _ _).mpr ⟨_, d, (reads_map _ _ _).mpr
        ⟨_, (parses_value true c₁).complete (hpt.ready hc) ⟨_, hpv, gv⟩ trivial, rfl⟩, h⟩

theorem parses_inputValue (c : Cursor) :
    Parses inputValue IsInputValue
      (fun k ↦ EndsDirectives k ∧ k ≠ .punctuator .bang ∧ k ≠ .punctuator .equals) c where
  sound := by
    intro x c' h
    simp only [inputValue] at h
    obtain ⟨d, c₁, hd, h⟩ := (reads_bind _ _ _).mp h
    rw [reads_offset_bind] at h
    have hc₁ := h.ready
    obtain ⟨n, c₂, hn, h⟩ := (reads_bind _ _ _).mp h
    obtain ⟨u, c₃, hu, -, hpu, h⟩ := (reads_expect_bind (by simp) _ _).mp h
    obtain ⟨t, c₄, ht, h⟩ := (reads_bind _ _ _).mp h
    obtain ⟨v, c₅, -, ⟨tv, hpv, gv⟩, -, h⟩ := (parses_default c₄).mp h
    obtain ⟨ds, c₆, hds, h⟩ := (reads_bind _ _ _).mp h
    obtain ⟨-, rfl, rfl⟩ := (reads_spanFrom_pure _ _ _).mp h
    obtain ⟨td, hpd, gd⟩ := (parses_description c).sound hd
    obtain ⟨tn, hpn, gn⟩ := (parses_name c₁).sound hn
    obtain ⟨tt, hpt, gt⟩ := (parses_typeRef c₃).sound ht
    obtain ⟨ts, hps, gs⟩ := (parses_directives c₅).sound hds
    have hp := (((hpn.append hpu).append hpt).append hpv).append hps
    rw [hp.spanFrom_eq hc₁ (by simp)]
    exact ⟨_, hpd.append hp, .mk gd (.mk gn hu gt) gv gs⟩
  complete := by
    intro x c' hc hs h'
    obtain ⟨_, hp, ⟨gd, ge, gv, gs⟩⟩ := hs
    obtain ⟨hf, hbang, heq⟩ := h'
    obtain ⟨c₁, hpd, hp⟩ := passed_append_iff.mp hp
    have hc₁ := hpd.ready hc
    obtain ⟨gn, hu, gt⟩ := ge
    rw [← hp.spanFrom_eq hc₁ (by simp)]
    simp only [List.append_assoc, passed_append_iff] at hp
    obtain ⟨c₂, hpn, c₃, hpu, c₄, hpt, c₅, hpv, hps⟩ := hp
    have hc₂ := hpn.ready hc₁
    have hc₃ := hpu.ready hc₂
    have hc₄ := hpt.ready hc₃
    have hc₅ := hpv.ready hc₄
    have hdefault := Spells.kind_optional ⟨_, hpv, gv⟩ (opens_preceded _)
    have hbang₅ := kind_directives (P := (· ≠ .punctuator .bang)) ⟨_, hps, gs⟩ (by simp) hbang
    have heq₅ := kind_directives (P := (· ≠ .punctuator .equals)) ⟨_, hps, gs⟩ (by simp) heq
    have hbang₄ : c₄.kind ≠ .punctuator .bang := by
      rcases hdefault with ⟨hk, -⟩ | ⟨-, rfl⟩
      · simp [hk]
      · exact hbang₅
    simp only [inputValue]
    refine (reads_bind _ _ _).mpr ⟨_, c₁, (parses_description c).complete hc ⟨_, hpd, gd⟩
      (not_isString_of_isName (Spells.kind ⟨_, hpn, gn⟩ opens_name)), ?_⟩
    rw [reads_offset_bind]
    refine (reads_bind _ _ _).mpr ⟨_, c₂, (parses_name c₁).complete hc₁ ⟨_, hpn, gn⟩ trivial, ?_⟩
    refine (reads_expect_bind (by simp) _ _).mpr ⟨_, c₃, hu, hc₂, hpu, ?_⟩
    refine (reads_bind _ _ _).mpr
      ⟨_, c₄, (parses_typeRef c₃).complete hc₃ ⟨_, hpt, gt⟩ hbang₄, ?_⟩
    refine (parses_default c₄).mpr ⟨_, c₅, hc₄, ⟨_, hpv, gv⟩, fun hnone ↦ ?_, ?_⟩
    · rcases hdefault with ⟨-, hv⟩ | ⟨-, rfl⟩
      · exact absurd hnone hv
      · exact heq₅
    · refine (reads_bind _ _ _).mpr
        ⟨_, c', (parses_directives c₅).complete hc₅ ⟨_, hps, gs⟩ hf, ?_⟩
      exact (reads_spanFrom_pure _ _ _).mpr ⟨hps.ready hc₅, rfl, rfl⟩

def StartsMember (k : TokenKind) : Prop :=
  isString k ∨ k.isName

theorem StartsMember.ne_punctuator {k : TokenKind} (h : StartsMember k) (p : Punctuator) :
    k ≠ .punctuator p := by
  rintro rfl
  rcases h with h | h <;> cases h

theorem StartsMember.endsDirectives {k : TokenKind} (h : StartsMember k) : EndsDirectives k :=
  ⟨h.ne_punctuator _, h.ne_punctuator _⟩

theorem exists_cons_of_described {td ts : List Token} {d : Option Description}
    (hd : Optional IsDescription td d) (h : ∃ t us, ts = t :: us ∧ t.kind.isName) :
    ∃ t us, td ++ ts = t :: us ∧ StartsMember t.kind := by
  cases hd with
  | absent =>
    obtain ⟨t, us, rfl, ht⟩ := h
    exact ⟨t, us, rfl, Or.inr ht⟩
  | present hd =>
    obtain ⟨t, us, rfl, ht⟩ := opens_description _ _ hd
    exact ⟨t, _, rfl, Or.inl ht⟩

theorem opens_inputValue : Opens IsInputValue StartsMember := by
  intro _ _ h
  obtain ⟨hd, he, -, -⟩ := h
  obtain ⟨t, us, rfl, ht⟩ := opens_entry _ _ _ he
  exact exists_cons_of_described hd ⟨t, _, rfl, ht⟩

theorem itemsOf_inputValue (closing : Punctuator)
    (h : closing = .parenClose ∨ closing = .braceClose) (c : Cursor) :
    ItemsOf closing inputValue IsInputValue StartsMember
      (fun k ↦ EndsDirectives k ∧ k ≠ .punctuator .bang ∧ k ≠ .punctuator .equals) c := by
  refine ⟨opens_inputValue, fun d _ ↦ parses_inputValue d, fun k hk ↦ hk.ne_punctuator _,
    fun k hk ↦ ⟨hk.endsDirectives, hk.ne_punctuator _, hk.ne_punctuator _⟩, ?_⟩
  rcases h with rfl | rfl <;> simp [EndsDirectives]

theorem parses_arguments (c : Cursor) :
    Parses arguments (Enclosed .parenOpen .parenClose IsInputValue) (· ≠ .punctuator .parenOpen)
      c :=
  parses_enclosed (itemsOf_inputValue .parenClose (by simp) c)

theorem opens_field : Opens IsField StartsMember := by
  intro _ _ h
  obtain ⟨hd, ⟨hn⟩, -, -, -⟩ := h
  exact exists_cons_of_described hd ⟨_, _, rfl, hn⟩

theorem parses_field (c : Cursor) :
    Parses field IsField (fun k ↦ EndsDirectives k ∧ k ≠ .punctuator .bang) c where
  sound := by
    intro x c' h
    simp only [field] at h
    obtain ⟨d, c₁, hd, h⟩ := (reads_bind _ _ _).mp h
    rw [reads_offset_bind] at h
    have hc₁ := h.ready
    obtain ⟨n, c₂, hn, h⟩ := (reads_bind _ _ _).mp h
    obtain ⟨as, c₃, has, h⟩ := (reads_bind _ _ _).mp h
    obtain ⟨u, c₄, hu, -, hpu, h⟩ := (reads_expect_bind (by simp) _ _).mp h
    obtain ⟨t, c₅, ht, h⟩ := (reads_bind _ _ _).mp h
    obtain ⟨ds, c₆, hds, h⟩ := (reads_bind _ _ _).mp h
    obtain ⟨-, rfl, rfl⟩ := (reads_spanFrom_pure _ _ _).mp h
    obtain ⟨td, hpd, gd⟩ := (parses_description c).sound hd
    obtain ⟨tn, hpn, gn⟩ := (parses_name c₁).sound hn
    obtain ⟨ta, hpa, ga⟩ := (parses_arguments c₂).sound has
    obtain ⟨tt, hpt, gt⟩ := (parses_typeRef c₄).sound ht
    obtain ⟨ts, hps, gs⟩ := (parses_directives c₅).sound hds
    have hp := ((hpn.append hpa).append (hpu.append hpt)).append hps
    rw [hp.spanFrom_eq hc₁ (by simp)]
    exact ⟨_, hpd.append hp, .mk gd gn ga (.mk hu gt) gs⟩
  complete := by
    intro x c' hc hs h'
    obtain ⟨_, hp, ⟨gd, gn, ga, ⟨hu, gt⟩, gs⟩⟩ := hs
    obtain ⟨hf, hbang⟩ := h'
    obtain ⟨c₁, hpd, hp⟩ := passed_append_iff.mp hp
    have hc₁ := hpd.ready hc
    rw [← hp.spanFrom_eq hc₁ (by simp)]
    simp only [List.append_assoc, passed_append_iff] at hp
    obtain ⟨c₂, hpn, c₃, hpa, c₄, hpu, c₅, hpt, hps⟩ := hp
    have hc₂ := hpn.ready hc₁
    have hc₃ := hpa.ready hc₂
    have hc₄ := hpu.ready hc₃
    have hc₅ := hpt.ready hc₄
    have hbang₅ := kind_directives (P := (· ≠ .punctuator .bang)) ⟨_, hps, gs⟩ (by simp) hbang
    simp only [field]
    refine (reads_bind _ _ _).mpr ⟨_, c₁, (parses_description c).complete hc ⟨_, hpd, gd⟩
      (not_isString_of_isName (Spells.kind ⟨_, hpn, gn⟩ opens_name)), ?_⟩
    rw [reads_offset_bind]
    refine (reads_bind _ _ _).mpr ⟨_, c₂, (parses_name c₁).complete hc₁ ⟨_, hpn, gn⟩ trivial, ?_⟩
    refine (reads_bind _ _ _).mpr ⟨_, c₃, (parses_arguments c₂).complete hc₂ ⟨_, hpa, ga⟩
      (by simp [hpu.kind_eq, hu]), ?_⟩
    refine (reads_expect_bind (by simp) _ _).mpr ⟨_, c₄, hu, hc₃, hpu, ?_⟩
    refine (reads_bind _ _ _).mpr
      ⟨_, c₅, (parses_typeRef c₄).complete hc₄ ⟨_, hpt, gt⟩ hbang₅, ?_⟩
    refine (reads_bind _ _ _).mpr
      ⟨_, c', (parses_directives c₅).complete hc₅ ⟨_, hps, gs⟩ hf, ?_⟩
    exact (reads_spanFrom_pure _ _ _).mpr ⟨hps.ready hc₅, rfl, rfl⟩

theorem itemsOf_field (c : Cursor) : ItemsOf .braceClose field IsField StartsMember
    (fun k ↦ EndsDirectives k ∧ k ≠ .punctuator .bang) c :=
  ⟨opens_field, fun d _ ↦ parses_field d, fun _ hk ↦ hk.ne_punctuator _,
    fun _ hk ↦ ⟨hk.endsDirectives, hk.ne_punctuator _⟩, by simp [EndsDirectives]⟩

theorem isValueKeyword_iff (k : TokenKind) : isValueKeyword k ↔
    k ∈ [TokenKind.keyword .trueValue, .keyword .falseValue, .keyword .nullValue] := by
  unfold isValueKeyword
  split <;> simp_all

theorem opens_enumValue : Opens IsEnumValue StartsMember := by
  intro _ _ h
  obtain ⟨hd, ⟨hn⟩, -, -⟩ := h
  exact exists_cons_of_described hd ⟨_, _, rfl, hn⟩

theorem parses_enumValue (c : Cursor) : Parses enumValue IsEnumValue EndsDirectives c where
  sound := by
    intro x c' h
    simp only [enumValue] at h
    obtain ⟨d, c₁, hd, h⟩ := (reads_bind _ _ _).mp h
    rw [reads_offset_bind, reads_kind_bind] at h
    have hc₁ := h.ready
    split at h
    next => exact absurd h (not_reads_unexpected_bind _ _ _)
    next hk =>
      obtain ⟨n, c₂, hn, h⟩ := (reads_bind _ _ _).mp h
      obtain ⟨ds, c₃, hds, h⟩ := (reads_bind _ _ _).mp h
      obtain ⟨-, rfl, rfl⟩ := (reads_spanFrom_pure _ _ _).mp h
      obtain ⟨td, hpd, gd⟩ := (parses_description c).sound hd
      obtain ⟨_, hpn, ⟨gn⟩⟩ := (parses_name c₁).sound hn
      obtain ⟨ts, hps, gs⟩ := (parses_directives c₂).sound hds
      have hp := hpn.append hps
      rw [hp.spanFrom_eq hc₁ (by simp)]
      rw [isValueKeyword_iff, hpn.kind_eq] at hk
      exact ⟨_, hpd.append hp, .mk gd (.mk gn) hk gs⟩
  complete := by
    intro x c' hc hs hf
    obtain ⟨_, hp, ⟨gd, gn, hk, gs⟩⟩ := hs
    obtain ⟨c₁, hpd, hp⟩ := passed_append_iff.mp hp
    have hc₁ := hpd.ready hc
    rw [← hp.spanFrom_eq hc₁ (by simp)]
    obtain ⟨c₂, hpn, hps⟩ := passed_append_iff.mp hp
    have hc₂ := hpn.ready hc₁
    simp only [enumValue]
    refine (reads_bind _ _ _).mpr ⟨_, c₁, (parses_description c).complete hc ⟨_, hpd, gd⟩
      (not_isString_of_isName (Spells.kind ⟨_, hpn, gn⟩ opens_name)), ?_⟩
    rw [reads_offset_bind, reads_kind_bind, if_neg (by rwa [isValueKeyword_iff, hpn.kind_eq])]
    refine (reads_bind _ _ _).mpr ⟨_, c₂, (parses_name c₁).complete hc₁ ⟨_, hpn, gn⟩ trivial, ?_⟩
    refine (reads_bind _ _ _).mpr
      ⟨_, c', (parses_directives c₂).complete hc₂ ⟨_, hps, gs⟩ hf, ?_⟩
    exact (reads_spanFrom_pure _ _ _).mpr ⟨hps.ready hc₂, rfl, rfl⟩

theorem itemsOf_enumValue (c : Cursor) :
    ItemsOf .braceClose enumValue IsEnumValue StartsMember EndsDirectives c :=
  ⟨opens_enumValue, fun d _ ↦ parses_enumValue d, fun _ hk ↦ hk.ne_punctuator _,
    fun _ hk ↦ hk.endsDirectives, by simp [EndsDirectives]⟩

end SchemaBindings.Sdl
