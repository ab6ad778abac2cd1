import SchemaBindings.Proofs.Sdl.Types

namespace SchemaBindings.Sdl

open Cursor Sentence Grammar SchemaBindings.Sdl.Parser

variable {c c' : Cursor}

theorem decimalValue_eq_numeral (ds : List Char) : decimalValue ds = numeral ds := by
  rw [decimalValue, ← List.foldr_reverse, numeral, Nat.ofDigits_eq_foldr, List.foldr_map]
  simp [Nat.add_comm]

theorem signedDecimal?_eq_some_iff (text : List Char) (n : Int) :
    signedDecimal? false text = some n ↔ Denotes text n := by
  have hdigits (ds : List Char) (m : Int) :
      (if ds ≠ [] ∧ ds.all Char.isDigit then some m else none) = some n ↔
        ds ≠ [] ∧ (∀ d ∈ ds, d.isDigit) ∧ n = m := by
    rw [Option.ite_none_right_eq_some, List.all_eq_true, and_assoc, Option.some_inj, eq_comm]
  have hsign (c : Char) (cs : List Char) (hc : ¬ c.isDigit) :
      ¬ ∀ d ∈ c :: cs, d.isDigit := fun h ↦ hc (h c (by simp))
  constructor
  · intro h
    unfold signedDecimal? at h
    split at h
    next ds =>
      obtain ⟨hne, hd, rfl⟩ := (hdigits _ _).mp h
      rw [decimalValue_eq_numeral]
      exact .neg hne hd
    next => simp at h
    next =>
      obtain ⟨hne, hd, rfl⟩ := (hdigits _ _).mp h
      rw [decimalValue_eq_numeral]
      exact .nonneg hne hd
  · intro h'
    rcases h' with ⟨hne, hd⟩ | ⟨hne, hd⟩
    · unfold signedDecimal?
      split
      next ds => exact absurd hd (hsign _ _ (by decide))
      next ds => exact absurd hd (hsign _ _ (by decide))
      next => exact (hdigits _ _).mpr ⟨hne, hd, by rw [decimalValue_eq_numeral]⟩
    · exact (hdigits _ _).mpr ⟨hne, hd, by rw [decimalValue_eq_numeral]⟩

theorem wholeNumber?_eq_some_iff (text : List Char) (n : Int) :
    wholeNumber? text = some n ↔ Denotes text n ∧ -2 ^ 63 ≤ n ∧ n < 2 ^ 63 := by
  rw [wholeNumber?, Option.filter_eq_some_iff, signedDecimal?_eq_some_iff]
  simp [isWord]
  omega

theorem covered_singleton (t : Token) : covered [t] = t.span := rfl

theorem reads_single {k : TokenKind} (hk : c.kind = k) (h : k ≠ .endOfInput) (f : Span → Value)
    (v : Value) :
    (advance >>= fun _ ↦ spanFrom c.span.start >>= fun s ↦ (pure (f s) : Parser Value)).Reads
      c v c' ↔ c.Ready ∧ ∃ t, t.kind = k ∧ Passed c [t] c' ∧ v = f t.span := by
  rw [reads_advance_bind (hk ▸ h)]
  simp only [reads_spanFrom_bind, reads_pure]
  constructor
  · intro h'
    obtain ⟨t, c₁, ht, hc, hp, -, rfl, rfl⟩ := h'
    exact ⟨hc, t, ht.trans hk, hp, by rw [hp.spanFrom_eq hc (by simp), covered_singleton]⟩
  · intro h'
    obtain ⟨hc, t, ht, hp, rfl⟩ := h'
    refine ⟨t, c', ht.trans hk.symm, hc, hp, hp.ready hc, ?_, rfl⟩
    rw [hp.spanFrom_eq hc (by simp), covered_singleton]

theorem opens_value (constant : Bool) :
    Opens (IsValue constant) (· ≠ .punctuator .bracketClose) := by
  intro _ _ h'
  rcases h' with ⟨-, h, -⟩ | ⟨h, -⟩ | h | h | h | h | h | h | ⟨⟨h⟩, -⟩ | ⟨h, -⟩ | ⟨h, -⟩
  case enum =>
    refine ⟨_, _, rfl, ?_⟩
    intro he
    rw [he] at h
    cases h
  all_goals exact ⟨_, _, rfl, by simp [h]⟩

theorem parses_entry {α : Type} {p : Parser α} {G : Phrase α} {follow : TokenKind → Prop}
    (hp : ∀ e : Cursor, e.upcoming.length < c.upcoming.length → Parses p G follow e) :
    Parses (do
      let n ← name
      expect (.punctuator .colon)
      return (n, ← p)) (Entry G) follow c where
  sound := by
    intro x c' h
    obtain ⟨n, c₁, hn, h⟩ := (reads_bind _ _ _).mp h
    obtain ⟨t, c₂, ht, -, hpt, h⟩ := (reads_expect_bind (by simp) _ _).mp h
    obtain ⟨v, c₃, hv, h⟩ := (reads_bind _ _ _).mp h
    obtain ⟨-, rfl, rfl⟩ := (reads_pure _ _).mp h
    obtain ⟨tn, hpn, gn⟩ := (parses_name c).sound hn
    have hp' := hpn.append hpt
    obtain ⟨tv, hpv, gv⟩ := (hp c₂ (hp'.length_lt (by simp))).sound hv
    exact ⟨_, hp'.append hpv, .mk gn ht gv⟩
  complete := by
    intro x c' hc hs hf
    obtain ⟨_, hpass, ⟨gn, ht, gv⟩⟩ := hs
    obtain ⟨c₂, hp', hpv⟩ := passed_append_iff.mp hpass
    obtain ⟨c₁, hpn, hpt⟩ := passed_append_iff.mp hp'
    refine (reads_bind _ _ _).mpr ⟨_, c₁, (parses_name c).complete hc ⟨_, hpn, gn⟩ trivial, ?_⟩
    refine (reads_expect_bind (by simp) _ _).mpr ⟨_, c₂, ht, hpn.ready hc, hpt, ?_⟩
    refine (reads_bind _ _ _).mpr ⟨_, c', (hp c₂ (hp'.length_lt (by simp))).complete
      (hp'.ready hc) ⟨_, hpv, gv⟩ hf, ?_⟩
    exact (reads_pure _ _).mpr ⟨hpass.ready hc, rfl, rfl⟩

theorem opens_entry {α : Type} (G : Phrase α) : Opens (Entry G) (·.isName) := by
  intro _ _ h'
  obtain ⟨⟨h⟩, -, -⟩ := h'
  exact ⟨_, _, rfl, h⟩

variable {constant : Bool} {inner : Parser Value}

theorem itemsOf_list (hinner : ∀ e : Cursor, e.upcoming.length < c.upcoming.length →
      Parses inner (IsValue constant) (fun _ ↦ True) e) :
    ItemsOf .bracketClose inner (IsValue constant) (· ≠ .punctuator .bracketClose) (fun _ ↦ True)
      c :=
  ⟨opens_value constant, hinner, fun _ hk ↦ hk, fun _ _ ↦ trivial, trivial⟩

theorem itemsOf_object (hinner : ∀ e : Cursor, e.upcoming.length < c.upcoming.length →
      Parses inner (IsValue constant) (fun _ ↦ True) e) :
    ItemsOf .braceClose (do
        let n ← name
        expect (.punctuator .colon)
        return (n, ← inner))
      (Entry (IsValue constant)) (·.isName) (fun _ ↦ True) c := by
  refine ⟨opens_entry _, fun d hd ↦ ?_, fun k hk he ↦ ?_, fun _ _ ↦ trivial, trivial⟩
  · exact parses_entry fun e he ↦ hinner e (Nat.lt_trans he hd)
  · rw [he] at hk
    cases hk

theorem sound_valueStep {v : Value}
    (hinner : ∀ e : Cursor, e.upcoming.length < c.upcoming.length →
      Parses inner (IsValue constant) (fun _ ↦ True) e)
    (h : (valueStep constant inner).Reads c v c') : Spells (IsValue constant) c v c' := by
  have hc := h.ready
  simp only [valueStep, reads_offset_bind, reads_kind_bind] at h
  split at h
  next hk =>
    obtain ⟨t, c₁, ht, -, hpt, h⟩ := (reads_advance_bind (by simp [hk]) _ _).mp h
    obtain ⟨n, c₂, hn, h⟩ := (reads_bind _ _ _).mp h
    obtain ⟨tn, hpn, gn⟩ := (parses_name c₁).sound hn
    split at h
    next =>
      rw [reads_spanFrom_bind, reads_bind] at h
      obtain ⟨u, c₃, h, -⟩ := h
      exact absurd h (not_reads_report _ _)
    next hconst =>
      obtain ⟨-, rfl, rfl⟩ := (reads_pure _ _).mp h
      exact ⟨_, hpt.append hpn, .variableRef (by simpa using hconst) (ht.trans hk) gn⟩
  next hk =>
    simp only [reads_look_bind] at h
    split at h
    next => exact absurd h (not_reads_unexpected_bind _ _ _)
    next hsome =>
      obtain ⟨-, t, ht, hp, rfl⟩ := (reads_single hk (by simp) _ _).mp h
      rw [hp.text_eq] at hsome ⊢
      obtain ⟨n, hn⟩ := Option.ne_none_iff_exists'.mp (by simpa using hsome)
      obtain ⟨hd, hw⟩ := (wholeNumber?_eq_some_iff _ _).mp hn
      rw [hn]
      exact ⟨_, hp, .int ht hd hw⟩
  next hk =>
    obtain ⟨-, t, ht, hp, rfl⟩ := (reads_single hk (by simp) _ _).mp ((reads_look_bind _ _ _).mp h)
    rw [hp.text_eq]
    exact ⟨_, hp, .float ht⟩
  next hk =>
    obtain ⟨-, t, ht, hp, rfl⟩ := (reads_single hk (by simp) _ _).mp ((reads_look_bind _ _ _).mp h)
    rw [hp.text_eq]
    exact ⟨_, hp, .string ht⟩
  next hk =>
    obtain ⟨-, t, ht, hp, rfl⟩ := (reads_single hk (by simp) _ _).mp ((reads_look_bind _ _ _).mp h)
    rw [hp.text_eq]
    exact ⟨_, hp, .blockString ht⟩
  next hk =>
    obtain ⟨-, t, ht, hp, rfl⟩ := (reads_single hk (by simp) (.boolean true) _).mp h
    exact ⟨_, hp, .true ht⟩
  next hk =>
    obtain ⟨-, t, ht, hp, rfl⟩ := (reads_single hk (by simp) (.boolean false) _).mp h
    exact ⟨_, hp, .false ht⟩
  next hk =>
    obtain ⟨-, t, ht, hp, rfl⟩ := (reads_single hk (by simp) .null _).mp h
    exact ⟨_, hp, .null ht⟩
  next hk =>
    obtain ⟨vs, c₁, hvs, h⟩ := (reads_bind _ _ _).mp h
    obtain ⟨-, rfl, rfl⟩ := (reads_spanFrom_pure _ _ _).mp h
    obtain ⟨ts, hp, hg⟩ := (parses_bracketed hk (itemsOf_list hinner)).sound hvs
    rw [hp.spanFrom_eq hc (by rintro rfl; cases hg)]
    exact ⟨ts, hp, .list hg⟩
  next hk =>
    obtain ⟨fs, c₁, hfs, h⟩ := (reads_bind _ _ _).mp h
    obtain ⟨-, rfl, rfl⟩ := (reads_spanFrom_pure _ _ _).mp h
    obtain ⟨ts, hp, hg⟩ := (parses_bracketed hk (itemsOf_object hinner)).sound hfs
    rw [hp.spanFrom_eq hc (by rintro rfl; cases hg)]
    exact ⟨ts, hp, .object hg⟩
  next h1 h2 h3 h4 h5 htrue hfalse hnull h9 h10 =>
    split at h
    next =>
      obtain ⟨n, c₁, hn, h⟩ := (reads_bind _ _ _).mp h
      obtain ⟨-, rfl, rfl⟩ := (reads_pure _ _).mp h
      obtain ⟨_, hp, ⟨hg⟩⟩ := (parses_name c).sound hn
      refine ⟨_, hp, .enum (.mk hg) ?_⟩
      simp only [List.mem_cons, List.not_mem_nil, or_false, ← hp.kind_eq]
      intro h'
      rcases h' with he | he | he
      · exact htrue he
      · exact hfalse he
      · exact hnull he
    next => exact absurd h (not_reads_unexpected_bind _ _ _)

theorem complete_valueStep {v : Value}
    (hinner : ∀ e : Cursor, e.upcoming.length < c.upcoming.length →
      Parses inner (IsValue constant) (fun _ ↦ True) e)
    (hc : c.Ready) (h : Spells (IsValue constant) c v c') :
    (valueStep constant inner).Reads c v c' := by
  obtain ⟨ts, hp, hg⟩ := h
  have hc' := hp.ready hc
  simp only [valueStep, reads_offset_bind, reads_kind_bind]
  cases hg with
  | variableRef hconst hd gn =>
    obtain ⟨c₁, hpd, hpn⟩ := passed_append_iff.mp hp
    have hk := hpd.kind_eq.trans hd
    simp only [hk]
    refine (reads_advance_bind (by simp [hk]) _ _).mpr ⟨_, c₁, hpd.kind_eq.symm, hc, hpd, ?_⟩
    refine (reads_bind _ _ _).mpr
      ⟨_, c', (parses_name c₁).complete (hpd.ready hc) ⟨_, hpn, gn⟩ trivial, ?_⟩
    rw [if_neg (by simp [hconst])]
    exact (reads_pure _ _).mpr ⟨hc', rfl, rfl⟩
  | int ht hn hw =>
    have hk := hp.kind_eq.trans ht
    have hnum := (wholeNumber?_eq_some_iff _ _).mpr ⟨hn, hw⟩
    simp only [hk, reads_look_bind, hp.text_eq, hnum, Option.isNone_some, Bool.false_eq_true,
      if_false]
    exact (reads_single hk (by simp) _ _).mpr ⟨hc, _, ht, hp, rfl⟩
  | float ht =>
    have hk := hp.kind_eq.trans ht
    simp only [hk, reads_look_bind, hp.text_eq]
    exact (reads_single hk (by simp) _ _).mpr ⟨hc, _, ht, hp, rfl⟩
  | string ht =>
    have hk := hp.kind_eq.trans ht
    simp only [hk, reads_look_bind, hp.text_eq]
    exact (reads_single hk (by simp) _ _).mpr ⟨hc, _, ht, hp, rfl⟩
  | blockString ht =>
    have hk := hp.kind_eq.trans ht
    simp only [hk, reads_look_bind, hp.text_eq]
    exact (reads_single hk (by simp) _ _).mpr ⟨hc, _, ht, hp, rfl⟩
  | true ht =>
    have hk := hp.kind_eq.trans ht
    simp only [hk]
    exact (reads_single hk (by simp) (.boolean true) _).mpr ⟨hc, _, ht, hp, rfl⟩
  | false ht =>
    have hk := hp.kind_eq.trans ht
    simp only [hk]
    exact (reads_single hk (by simp) (.boolean false) _).mpr ⟨hc, _, ht, hp, rfl⟩
  | null ht =>
    have hk := hp.kind_eq.trans ht
    simp only [hk]
    exact (reads_single hk (by simp) .null _).mpr ⟨hc, _, ht, hp, rfl⟩
  | @enum t n gn hv =>
    have hname : t.kind.isName := by
      cases gn with
      | mk h => exact h
    have hr : (name >>= fun n ↦ (pure (.enum n) : Parser Value)).Reads c (.enum n) c' :=
      (reads_bind _ _ _).mpr ⟨n, c', (parses_name c).complete hc ⟨_, hp, gn⟩ trivial,
        (reads_pure _ _).mpr ⟨hc', rfl, rfl⟩⟩
    rw [← hp.kind_eq] at hname hv
    simp only [List.mem_cons, List.not_mem_nil, or_false, not_or] at hv
    split
    case h_6 hk => exact absurd hk hv.1
    case h_7 hk => exact absurd hk hv.2.1
    case h_8 hk => exact absurd hk hv.2.2
    case h_11 => rwa [if_pos hname]
    all_goals
      rename_i hk
      rw [hk] at hname
      cases hname
  | list hg =>
    have hk := Spells.kind ⟨_, hp, hg⟩ (opens_bracketed _ _)
    simp only [hk]
    refine (reads_bind _ _ _).mpr
      ⟨_, c', (parses_bracketed hk (itemsOf_list hinner)).complete hc ⟨_, hp, hg⟩ trivial, ?_⟩
    rw [← hp.spanFrom_eq hc (by rintro rfl; cases hg)]
    exact (reads_spanFrom_pure _ _ _).mpr ⟨hc', rfl, rfl⟩
  | object hg =>
    have hk := Spells.kind ⟨_, hp, hg⟩ (opens_bracketed _ _)
    simp only [hk]
    refine (reads_bind _ _ _).mpr
      ⟨_, c', (parses_bracketed hk (itemsOf_object hinner)).complete hc ⟨_, hp, hg⟩ trivial, ?_⟩
    rw [← hp.spanFrom_eq hc (by rintro rfl; cases hg)]
    exact (reads_spanFrom_pure _ _ _).mpr ⟨hc', rfl, rfl⟩

theorem parses_value (constant : Bool) (c : Cursor) :
    Parses (value constant) (IsValue constant) (fun _ ↦ True) c :=
  parses_nested (fun _ _ hinner ↦
    ⟨sound_valueStep hinner, fun hc h _ ↦ complete_valueStep hinner hc h⟩) c

end SchemaBindings.Sdl
