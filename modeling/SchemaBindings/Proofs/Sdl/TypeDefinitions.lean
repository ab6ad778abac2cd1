import SchemaBindings.Proofs.Sdl.Members

namespace SchemaBindings.Sdl

open Cursor Sentence Grammar SchemaBindings.Sdl.Parser

variable {c c' : Cursor}

theorem parses_flag {k : TokenKind} (hk : k ≠ .endOfInput) (c : Cursor) :
    Parses (eat k) (Flag k) (· ≠ k) c where
  sound := by
    intro b c' h
    rcases ((reads_eat hk _).mp h).2 with ⟨rfl, t, ht, hp⟩ | ⟨rfl, -, rfl⟩
    · exact ⟨[t], hp, .present ht⟩
    · exact ⟨[], passed_nil_iff.mpr rfl, .absent⟩
  complete := by
    intro b c' hc hs hf
    obtain ⟨ts, hp, hg⟩ := hs
    cases hg with
    | absent =>
      obtain rfl := passed_nil_iff.mp hp
      exact (reads_eat hk _).mpr ⟨hc, Or.inr ⟨rfl, hf, rfl⟩⟩
    | present ht => exact (reads_eat hk _).mpr ⟨hc, Or.inl ⟨rfl, _, ht, hp⟩⟩

theorem parses_precededName {k : TokenKind} (hk : c.kind = k) (hne : k ≠ .endOfInput) :
    Parses (advance >>= fun _ ↦ name) (Preceded k IsName) (fun _ ↦ True) c where
  sound := by
    intro n c' h
    obtain ⟨t, c₁, ht, -, hpt, h⟩ := (reads_advance_bind (hk ▸ hne) _ _).mp h
    obtain ⟨ts, hpn, gn⟩ := (parses_name c₁).sound h
    exact ⟨_, hpt.append hpn, .mk (ht.trans hk) gn⟩
  complete := by
    intro n c' hc hs _
    obtain ⟨_, hp, ⟨ht, gn⟩⟩ := hs
    obtain ⟨c₁, hpt, hpn⟩ := passed_append_iff.mp hp
    refine (reads_advance_bind (hk ▸ hne) _ _).mpr ⟨_, c₁, ht.trans hk.symm, hc, hpt, ?_⟩
    exact (parses_name c₁).complete (hpt.ready hc) ⟨_, hpn, gn⟩ trivial

theorem parses_moreNames (mark : Punctuator) (c : Cursor) :
    Parses (many (· == .punctuator mark) (advance >>= fun _ ↦ name))
      (Many (Preceded (.punctuator mark) IsName)) (· ≠ .punctuator mark) c := by
  refine parses_many (opens_preceded _)
    (fun d _ hd ↦ parses_precededName (by simpa using hd) (by simp)) ?_ ?_ ?_ ?_
  · intro k he
    obtain rfl := he
    simp
  · exact fun k hk ↦ Or.inr (by simpa using hk)
  · exact fun _ _ ↦ trivial
  · exact fun _ _ ↦ trivial

theorem parses_separatedNames (mark : Punctuator) (c : Cursor) :
    Parses (separatedNames mark) (Separated mark IsName) (· ≠ .punctuator mark) c where
  sound := by
    intro ns c' h
    simp only [separatedNames] at h
    obtain ⟨b, c₁, hb, h⟩ := (reads_bind _ _ _).mp h
    obtain ⟨n, c₂, hn, h⟩ := (reads_bind _ _ _).mp h
    obtain ⟨ms, c₃, hms, h⟩ := (reads_bind _ _ _).mp h
    obtain ⟨-, rfl, rfl⟩ := (reads_pure _ _).mp h
    obtain ⟨tb, hpb, gb⟩ := (parses_flag (by simp) c).sound hb
    obtain ⟨tn, hpn, gn⟩ := (parses_name c₁).sound hn
    obtain ⟨tm, hpm, gm⟩ := (parses_moreNames mark c₂).sound hms
    exact ⟨_, hpb.append (hpn.append hpm), .mk gb (.mk gn gm)⟩
  complete := by
    intro ns c' hc hs hf
    obtain ⟨_, hp, ⟨gb, ⟨gn, gm⟩⟩⟩ := hs
    have hc' := hp.ready hc
    simp only [passed_append_iff] at hp
    obtain ⟨c₁, hpb, c₂, hpn, hpm⟩ := hp
    have hc₁ := hpb.ready hc
    have hname := Spells.kind ⟨_, hpn, gn⟩ opens_name
    simp only [separatedNames]
    refine (reads_bind _ _ _).mpr ⟨_, c₁, (parses_flag (by simp) c).complete hc ⟨_, hpb, gb⟩
      (ne_punctuator_of_isName hname _), ?_⟩
    refine (reads_bind _ _ _).mpr ⟨_, c₂, (parses_name c₁).complete hc₁ ⟨_, hpn, gn⟩ trivial, ?_⟩
    refine (reads_bind _ _ _).mpr ⟨_, c',
      (parses_moreNames mark c₂).complete (hpn.ready hc₁) ⟨_, hpm, gm⟩ hf, ?_⟩
    exact (reads_pure _ _).mpr ⟨hc', rfl, rfl⟩

def namesBehind (k : TokenKind) (mark : Punctuator) : Parser (List Name) := do
  if ← eat k then separatedNames mark else return []

theorem parses_namesBehind {k : TokenKind} (hk : k ≠ .endOfInput) (mark : Punctuator) (c : Cursor) :
    Parses (namesBehind k mark) (NamesBehind k mark) (fun l ↦ l ≠ k ∧ l ≠ .punctuator mark) c where
  sound := by
    intro ns c' h
    rcases (reads_eat_bind hk _ _).mp h with ⟨t, c₁, ht, -, hpt, h⟩ | ⟨-, h⟩
    · obtain ⟨ts, hp, hg⟩ := (parses_separatedNames mark c₁).sound h
      exact ⟨_, hpt.append hp, .present (.mk ht hg)⟩
    · obtain ⟨-, rfl, rfl⟩ := (reads_pure _ _).mp h
      exact ⟨[], passed_nil_iff.mpr rfl, .absent⟩
  complete := by
    intro ns c' hc hs h'
    obtain ⟨_, hp, hg⟩ := hs
    obtain ⟨hne, hmark⟩ := h'
    cases hg with
    | absent =>
      obtain rfl := passed_nil_iff.mp hp
      exact (reads_eat_bind hk _ _).mpr (Or.inr ⟨hne, (reads_pure _ _).mpr ⟨hc, rfl, rfl⟩⟩)
    | present hg =>
      obtain ⟨ht, hg⟩ := hg
      obtain ⟨c₁, hpt, hp⟩ := passed_append_iff.mp hp
      exact (reads_eat_bind hk _ _).mpr (Or.inl ⟨_, c₁, ht, hc, hpt,
        (parses_separatedNames mark c₁).complete (hpt.ready hc) ⟨_, hp, hg⟩ hmark⟩)

theorem Spells.kind_namesBehind {k : TokenKind} {mark : Punctuator} {ns : List Name}
    (h : Spells (NamesBehind k mark) c ns c') : c.kind = k ∨ c' = c := by
  obtain ⟨ts, hp, hg⟩ := h
  cases hg with
  | absent => exact Or.inr (passed_nil_iff.mp hp)
  | present hg => exact Or.inl (Spells.kind ⟨ts, hp, hg⟩ (opens_preceded k))

theorem Spells.kind_enclosed {α : Type} {opening closing : Punctuator} {G : Phrase α} {as : List α}
    (h : Spells (Enclosed opening closing G) c as c') :
    c.kind = .punctuator opening ∨ c' = c := by
  obtain ⟨ts, hp, hg⟩ := h
  cases hg with
  | absent => exact Or.inr (passed_nil_iff.mp hp)
  | present hg => exact Or.inl (Spells.kind ⟨ts, hp, hg⟩ (opens_bracketed _ _))

/-- What may stand behind the definition of a type: nothing that could go on with it. -/
def EndsType (k : TokenKind) : Prop :=
  EndsDirectives k ∧ k ≠ .punctuator .braceOpen ∧ k ≠ .punctuator .equals ∧ k ≠ .punctuator .pipe ∧
    k ≠ .punctuator .ampersand ∧ k ≠ .keyword .implements

theorem EndsType.endsDirectives {k : TokenKind} (h : EndsType k) : EndsDirectives k :=
  h.1

theorem parses_braced {α : Type} {p : Parser α} {G : Phrase α} {first itemFollow : TokenKind → Prop}
    (hitems : ∀ d, ItemsOf .braceClose p G first itemFollow d) (body : List α → TypeBody)
    (c : Cursor) :
    Parses (do
        let ds ← directives
        return (ds, body (← enclosed .braceOpen .braceClose (upTo .braceClose p))))
      (Braced G body) EndsType c where
  sound := by
    intro x c' h
    obtain ⟨ds, c₁, hds, h⟩ := (reads_bind _ _ _).mp h
    obtain ⟨as, c₂, has, h⟩ := (reads_bind _ _ _).mp h
    obtain ⟨-, rfl, rfl⟩ := (reads_pure _ _).mp h
    obtain ⟨td, hpd, gd⟩ := (parses_directives c).sound hds
    obtain ⟨ta, hpa, ga⟩ := (parses_enclosed (hitems c₁)).sound has
    exact ⟨_, hpd.append hpa, .mk gd ga⟩
  complete := by
    intro x c' hc hs h'
    obtain ⟨_, hp, ⟨gd, ga⟩⟩ := hs
    obtain ⟨hdir, hbrace, -⟩ := h'
    have hc' := hp.ready hc
    obtain ⟨c₁, hpd, hpa⟩ := passed_append_iff.mp hp
    have hends : EndsDirectives c₁.kind := by
      rcases Spells.kind_enclosed ⟨_, hpa, ga⟩ with hk | rfl
      · simp [hk, EndsDirectives]
      · exact hdir
    refine (reads_bind _ _ _).mpr
      ⟨_, c₁, (parses_directives c).complete hc ⟨_, hpd, gd⟩ hends, ?_⟩
    refine (reads_bind _ _ _).mpr ⟨_, c',
      (parses_enclosed (hitems c₁)).complete (hpd.ready hc) ⟨_, hpa, ga⟩ hbrace, ?_⟩
    exact (reads_pure _ _).mpr ⟨hc', rfl, rfl⟩

theorem kind_braced {α : Type} {G : Phrase α} {body : List α → TypeBody}
    {x : List Directive × TypeBody} {P : TokenKind → Prop} (h : Spells (Braced G body) c x c')
    (hat : P (.punctuator .at)) (hbrace : P (.punctuator .braceOpen)) (hend : P c'.kind) :
    P c.kind := by
  obtain ⟨_, hp, ⟨gd, ga⟩⟩ := h
  obtain ⟨c₁, hpd, hpa⟩ := passed_append_iff.mp hp
  refine kind_directives ⟨_, hpd, gd⟩ hat ?_
  rcases Spells.kind_enclosed ⟨_, hpa, ga⟩ with hk | rfl
  · rwa [hk]
  · exact hend

theorem parses_recordBody {body : List Name → List FieldDefinition → TypeBody} {k : Keyword}
    (hk : ∀ ts x, IsTypeBody k ts x ↔ ∃ ti tb is, ts = ti ++ tb ∧ IsImplements ti is ∧
      Braced IsField (body is) tb x) (c : Cursor) :
    Parses (do
        let is ← implements
        let ds ← directives
        return (ds, body is (← fields)))
      (IsTypeBody k) EndsType c where
  sound := by
    intro x c' h
    obtain ⟨is, c₁, his, h⟩ := (reads_bind _ _ _).mp h
    obtain ⟨ti, hpi, gi⟩ := (parses_namesBehind (by simp) _ c).sound his
    obtain ⟨tb, hpb, gb⟩ := (parses_braced itemsOf_field (body is) c₁).sound h
    exact ⟨_, hpi.append hpb, (hk _ _).mpr ⟨ti, tb, is, rfl, gi, gb⟩⟩
  complete := by
    intro x c' hc hs hf
    obtain ⟨ts, hp, hg⟩ := hs
    obtain ⟨ti, tb, is, rfl, gi, gb⟩ := (hk _ _).mp hg
    obtain ⟨c₁, hpi, hpb⟩ := passed_append_iff.mp hp
    have ⟨_, _, _, _, hamp, himp⟩ := hf
    have hnext : c₁.kind ≠ .keyword .implements ∧ c₁.kind ≠ .punctuator .ampersand :=
      ⟨kind_braced (P := (· ≠ .keyword .implements)) ⟨_, hpb, gb⟩ (by simp) (by simp) himp,
        kind_braced (P := (· ≠ .punctuator .ampersand)) ⟨_, hpb, gb⟩ (by simp) (by simp) hamp⟩
    refine (reads_bind _ _ _).mpr
      ⟨is, c₁, (parses_namesBehind (by simp) _ c).complete hc ⟨_, hpi, gi⟩ hnext, ?_⟩
    exact (parses_braced itemsOf_field (body is) c₁).complete (hpi.ready hc) ⟨_, hpb, gb⟩ hf

theorem parses_objectBody (c : Cursor) : Parses objectBody (IsTypeBody .type) EndsType c := by
  refine parses_recordBody (fun ts x ↦ ⟨?_, ?_⟩) c
  · rintro ⟨⟩
    exact ⟨_, _, _, rfl, ‹_›, ‹_›⟩
  · intro h
    obtain ⟨ti, tb, is, rfl, hi, hb⟩ := h
    exact .object hi hb

theorem parses_interfaceBody (c : Cursor) :
    Parses interfaceBody (IsTypeBody .interface) EndsType c := by
  refine parses_recordBody (fun ts x ↦ ⟨?_, ?_⟩) c
  · rintro ⟨⟩
    exact ⟨_, _, _, rfl, ‹_›, ‹_›⟩
  · intro h
    obtain ⟨ti, tb, is, rfl, hi, hb⟩ := h
    exact .interface hi hb

theorem parses_unionBody (c : Cursor) : Parses unionBody (IsTypeBody .union) EndsType c where
  sound := by
    intro x c' h
    obtain ⟨ds, c₁, hds, h⟩ := (reads_bind _ _ _).mp h
    obtain ⟨td, hpd, gd⟩ := (parses_directives c).sound hds
    rcases (reads_eat_bind (by simp) _ _).mp h with ⟨t, c₂, ht, hc₁, hpt, h⟩ | ⟨hk, h⟩
    · obtain ⟨ms, c₃, hms, h⟩ := (reads_bind _ _ _).mp h
      obtain ⟨-, rfl, rfl⟩ := (reads_pure _ _).mp h
      obtain ⟨tm, hpm, gm⟩ := (parses_separatedNames .pipe c₂).sound hms
      exact ⟨_, hpd.append (hpt.append hpm), .union gd (.present (.mk ht gm))⟩
    · simp only [Bool.false_eq_true, if_false, reads_pure_bind] at h
      obtain ⟨-, rfl, rfl⟩ := (reads_pure _ _).mp h
      exact ⟨td, hpd, by simpa using IsTypeBody.union gd .absent⟩
  complete := by
    intro x c' hc hs h'
    obtain ⟨_, hp, hg⟩ := hs
    obtain ⟨hdir, -, heq, hpipe, -⟩ := h'
    have hc' := hp.ready hc
    cases hg with
    | @union td tm ds ms gd gm =>
      obtain ⟨c₁, hpd, hpm⟩ := passed_append_iff.mp hp
      have hc₁ := hpd.ready hc
      have hends : EndsDirectives c₁.kind := by
        rcases Spells.kind_namesBehind ⟨_, hpm, gm⟩ with hk | rfl
        · simp [hk, EndsDirectives]
        · exact hdir
      refine (reads_bind _ _ _).mpr
        ⟨_, c₁, (parses_directives c).complete hc ⟨_, hpd, gd⟩ hends, ?_⟩
      refine (reads_eat_bind (by simp) _ _).mpr ?_
      cases gm with
      | absent =>
        obtain rfl := passed_nil_iff.mp hpm
        exact Or.inr ⟨heq, (reads_pure _ _).mpr ⟨hc', rfl, rfl⟩⟩
      | present gm =>
        obtain ⟨ht, gm⟩ := gm
        obtain ⟨c₂, hpt, hpm⟩ := passed_append_iff.mp hpm
        refine Or.inl ⟨_, c₂, ht, hc₁, hpt, (reads_bind _ _ _).mpr ⟨ms, c', ?_, ?_⟩⟩
        · exact (parses_separatedNames .pipe c₂).complete (hpt.ready hc₁) ⟨_, hpm, gm⟩ hpipe
        · exact (reads_pure _ _).mpr ⟨hc', rfl, rfl⟩

theorem Parses.congr {α : Type} {p : Parser α} {G H : Phrase α} {follow : TokenKind → Prop}
    (h : Parses p G follow c) (hiff : ∀ ts a, G ts a ↔ H ts a) : Parses p H follow c := by
  have heq : G = H := funext fun ts ↦ funext fun a ↦ propext (hiff ts a)
  exact heq ▸ h

theorem parses_enumBody (c : Cursor) : Parses enumBody (IsTypeBody .enum) EndsType c := by
  refine (parses_braced itemsOf_enumValue .enum c).congr fun ts x ↦ ⟨.enum, ?_⟩
  rintro ⟨⟩
  assumption

theorem parses_inputBody (c : Cursor) : Parses inputBody (IsTypeBody .input) EndsType c := by
  refine (parses_braced (itemsOf_inputValue .braceClose (by simp)) .input c).congr
    fun ts x ↦ ⟨.input, ?_⟩
  rintro ⟨⟩
  assumption

theorem parses_scalarBody (c : Cursor) : Parses scalarBody (IsTypeBody .scalar) EndsType c where
  sound := by
    intro x c' h
    obtain ⟨ds, c₁, hds, h⟩ := (reads_bind _ _ _).mp h
    obtain ⟨-, rfl, rfl⟩ := (reads_pure _ _).mp h
    obtain ⟨td, hpd, gd⟩ := (parses_directives c).sound hds
    exact ⟨td, hpd, .scalar gd⟩
  complete := by
    intro x c' hc hs hf
    obtain ⟨_, hp, hg⟩ := hs
    cases hg with
    | scalar gd =>
      refine (reads_bind _ _ _).mpr
        ⟨_, c', (parses_directives c).complete hc ⟨_, hp, gd⟩ hf.endsDirectives, ?_⟩
      exact (reads_pure _ _).mpr ⟨hp.ready hc, rfl, rfl⟩

theorem parses_typeRest {k : Keyword} {body : Parser (List Directive × TypeBody)}
    (hbody : ∀ d, Parses body (IsTypeBody k) EndsType d) (hk : c.kind = .keyword k)
    (d : Option Description) :
    Parses (typeRest d body) (IsTypeDefinition d) EndsType c where
  sound := by
    intro x c' h
    have hc := h.ready
    simp only [typeRest, reads_offset_bind] at h
    obtain ⟨t, c₁, ht, -, hpt, h⟩ := (reads_advance_bind (by simp [hk]) _ _).mp h
    obtain ⟨n, c₂, hn, h⟩ := (reads_bind _ _ _).mp h
    obtain ⟨⟨ds, b⟩, c₃, hb, h⟩ := (reads_bind _ _ _).mp h
    obtain ⟨-, rfl, rfl⟩ := (reads_spanFrom_pure _ _ _).mp h
    obtain ⟨tn, hpn, gn⟩ := (parses_name c₁).sound hn
    obtain ⟨tb, hpb, gb⟩ := (hbody c₂).sound hb
    have hp := (hpt.append hpn).append hpb
    rw [hp.spanFrom_eq hc (by simp)]
    exact ⟨_, hp, .mk (ht.trans hk) gn gb⟩
  complete := by
    intro x c' hc hs hf
    obtain ⟨_, hp, ⟨ht, gn, gb⟩⟩ := hs
    rw [← hp.spanFrom_eq hc (by simp)]
    have hc' := hp.ready hc
    simp only [List.append_assoc, passed_append_iff] at hp
    obtain ⟨c₁, hpt, c₂, hpn, hpb⟩ := hp
    have hc₁ := hpt.ready hc
    rw [← hpt.kind_eq, hk] at ht
    cases ht
    simp only [typeRest, reads_offset_bind]
    refine (reads_advance_bind (by simp [hk]) _ _).mpr ⟨_, c₁, hpt.kind_eq.symm, hc, hpt, ?_⟩
    refine (reads_bind _ _ _).mpr ⟨_, c₂, (parses_name c₁).complete hc₁ ⟨_, hpn, gn⟩ trivial, ?_⟩
    refine (reads_bind _ _ _).mpr
      ⟨_, c', (hbody c₂).complete (hpn.ready hc₁) ⟨_, hpb, gb⟩ hf, ?_⟩
    exact (reads_spanFrom_pure _ _ _).mpr ⟨hc', rfl, rfl⟩

theorem opens_typeDefinition (d : Option Description) :
    Opens (IsTypeDefinition d) fun k ↦
      k ∈ [TokenKind.keyword .type, .keyword .interface, .keyword .union, .keyword .enum,
        .keyword .input, .keyword .scalar] := by
  intro _ _ h
  obtain ⟨ht, -, hb⟩ := h
  refine ⟨_, _, rfl, ?_⟩
  rw [ht]
  cases hb <;> simp

theorem sound_typeDefinition {d : Option Description} {o : Option TypeDefinition}
    (h : (typeDefinition? d).Reads c o c') :
    (∃ t, o = some t ∧ Spells (IsTypeDefinition d) c t c') ∨ o = none ∧ c' = c := by
  simp only [typeDefinition?, reads_kind_bind] at h
  have hrest {k : Keyword} {body : Parser (List Directive × TypeBody)}
      (hbody : ∀ d, Parses body (IsTypeBody k) EndsType d) (hk : c.kind = .keyword k)
      (h : (some <$> typeRest d body).Reads c o c') :
      (∃ t, o = some t ∧ Spells (IsTypeDefinition d) c t c') ∨ o = none ∧ c' = c := by
    obtain ⟨t, ht, rfl⟩ := (reads_map _ _ _).mp h
    exact Or.inl ⟨t, rfl, (parses_typeRest hbody hk d).sound ht⟩
  split at h
  next hk => exact hrest parses_objectBody hk h
  next hk => exact hrest parses_interfaceBody hk h
  next hk => exact hrest parses_unionBody hk h
  next hk => exact hrest parses_enumBody hk h
  next hk => exact hrest parses_inputBody hk h
  next hk => exact hrest parses_scalarBody hk h
  next =>
    obtain ⟨-, rfl, rfl⟩ := (reads_pure _ _).mp h
    exact Or.inr ⟨rfl, rfl⟩

theorem complete_typeDefinition {d : Option Description} {t : TypeDefinition} (hc : c.Ready)
    (h : Spells (IsTypeDefinition d) c t c') (hf : EndsType c'.kind) :
    (typeDefinition? d).Reads c (some t) c' := by
  have hrest {k : Keyword} {body : Parser (List Directive × TypeBody)}
      (hbody : ∀ d, Parses body (IsTypeBody k) EndsType d) (hk : c.kind = .keyword k) :
      (some <$> typeRest d body).Reads c (some t) c' :=
    (reads_map _ _ _).mpr ⟨t, (parses_typeRest hbody hk d).complete hc h hf, rfl⟩
  have hk := h.kind (opens_typeDefinition d)
  simp only [List.mem_cons, List.not_mem_nil, or_false] at hk
  simp only [typeDefinition?, reads_kind_bind]
  rcases hk with hk | hk | hk | hk | hk | hk
  · rw [hk]
    exact hrest parses_objectBody hk
  · rw [hk]
    exact hrest parses_interfaceBody hk
  · rw [hk]
    exact hrest parses_unionBody hk
  · rw [hk]
    exact hrest parses_enumBody hk
  · rw [hk]
    exact hrest parses_inputBody hk
  · rw [hk]
    exact hrest parses_scalarBody hk

end SchemaBindings.Sdl
