import SchemaBindings.Proofs.Sdl.Scanning
import SchemaBindings.Proofs.Source.Lines

namespace SchemaBindings.Sdl

open Text

/-- How many characters of `rest` belong to what the scan of `pre ++ rest` begins in `pre`, where
`skip` characters belong to what was scanned before. -/
def overhang : (skip : Nat) → (pre rest : List Char) → Nat
  | skip, [], _ => skip
  | skip + 1, _ :: pre, rest => overhang skip pre rest
  | 0, c :: pre, rest => overhang (scan c (pre ++ rest)).more pre rest

@[simp] theorem overhang_nil (skip : Nat) (rest : List Char) : overhang skip [] rest = skip := by
  cases skip <;> rfl

theorem overhang_append (skip : Nat) (p q rest : List Char) :
    overhang skip (p ++ q) rest = overhang (overhang skip p (q ++ rest)) q rest := by
  induction p generalizing skip with
  | nil => simp
  | cons c p ih =>
    cases skip with
    | zero => simp only [List.cons_append, overhang, ih, List.append_assoc]
    | succ skip => simp only [List.cons_append, overhang, ih]

theorem overhang_of_le {skip : Nat} {pre : List Char} (h : pre.length ≤ skip) (rest : List Char) :
    overhang skip pre rest = skip - pre.length := by
  induction pre generalizing skip with
  | nil => simp
  | cons c pre ih =>
    cases skip with
    | zero => simp at h
    | succ skip =>
      rw [overhang, ih (by simpa using h), List.length_cons]
      omega

theorem exists_split_of_overhang_pos {skip : Nat} {pre rest : List Char}
    (h : 0 < overhang skip pre rest) :
    pre.length < skip ∨ ∃ p c q, pre = p ++ c :: q ∧ overhang skip p (c :: (q ++ rest)) = 0 ∧
      q.length < (scan c (q ++ rest)).more := by
  induction pre generalizing skip with
  | nil => exact Or.inl (by simpa using h)
  | cons c pre ih =>
    cases skip with
    | zero =>
      rw [overhang] at h
      obtain hlt | ⟨p, d, q, rfl, hp, hq⟩ := ih h
      · exact Or.inr ⟨[], c, pre, rfl, rfl, hlt⟩
      · refine Or.inr ⟨c :: p, d, q, rfl, ?_, hq⟩
        rw [overhang]
        simpa only [List.append_assoc, List.cons_append] using hp
    | succ skip =>
      rw [overhang] at h
      obtain hlt | ⟨p, d, q, rfl, hp, hq⟩ := ih h
      · exact Or.inl (by simpa using hlt)
      · exact Or.inr ⟨c :: p, d, q, rfl, hp, hq⟩

theorem tokensFrom_append (skip offset : Nat) (pre rest : List Char) :
    ∃ before, tokensFrom skip offset (pre ++ rest) =
        before ++ tokensFrom (overhang skip pre rest) (offset + byteLength pre) rest ∧
      (overhang skip pre rest = 0 → ∀ t ∈ before, t.kind ≠ .cutEscape →
        t.span.stop ≤ offset + byteLength pre) := by
  induction pre generalizing skip offset with
  | nil => exact ⟨[], by simp, by simp⟩
  | cons c pre ih =>
    have hoffset (n : Nat) : n + c.utf8Size + byteLength pre = n + byteLength (c :: pre) := by
      rw [byteLength_cons, Nat.add_assoc]
    cases skip with
    | succ skip =>
      obtain ⟨before, htokens, hstop⟩ := ih skip (offset + c.utf8Size)
      rw [hoffset] at htokens hstop
      exact ⟨before, htokens, hstop⟩
    | zero =>
      obtain ⟨before, htokens, hstop⟩ := ih (scan c (pre ++ rest)).more (offset + c.utf8Size)
      rw [hoffset] at htokens hstop
      rw [List.cons_append, tokensFrom, overhang]
      cases hk : (scan c (pre ++ rest)).kind with
      | none => exact ⟨before, htokens, hstop⟩
      | some kind =>
        refine ⟨_ :: before, by rw [List.cons_append, ← htokens], fun hzero t ht hne ↦ ?_⟩
        rcases List.mem_cons.mp ht with rfl | ht
        · have hle : (scan c (pre ++ rest)).more ≤ pre.length := by
            by_contra hlt
            rw [overhang_of_le (by omega)] at hzero
            omega
          rw [kind_of] at hne
          rw [stop_of hne, List.take_append_of_le_length hle, byteLength_cons, byteLength_cons]
          have hsplit : byteLength pre = byteLength (pre.take (scan c (pre ++ rest)).more) +
              byteLength (pre.drop (scan c (pre ++ rest)).more) := by
            rw [← byteLength_append, List.take_append_drop]
          omega
        · exact hstop hzero t ht hne

/-- Whether `offset` lies inside a token, neither at its start nor at its end. -/
def InToken (text : List Char) (offset : Nat) : Prop :=
  ∃ t ∈ tokens text, t.span.start < offset ∧ offset < t.span.stop

instance (text : List Char) (offset : Nat) : Decidable (InToken text offset) :=
  inferInstanceAs (Decidable (∃ t ∈ tokens text, _))

theorem not_inToken_of_overhang {pre rest : List Char} (h : overhang 0 pre rest = 0)
    (hfault : ∀ t ∈ tokens (pre ++ rest), ¬ t.kind.isFault) :
    ¬ InToken (pre ++ rest) (byteLength pre) := by
  obtain ⟨before, htokens, hstop⟩ := tokensFrom_append 0 0 pre rest
  intro h'
  obtain ⟨t, ht, hstart, hend⟩ := h'
  have hne : t.kind ≠ .cutEscape := by
    intro hk
    exact hfault t ht (by rw [hk]; rfl)
  rw [tokens, htokens, List.mem_append] at ht
  rw [h, Nat.zero_add] at ht
  rcases ht with ht | ht
  · have := hstop h t ht hne
    omega
  · have := (inOrder_tokensFrom 0 (byteLength pre) rest).2 t ht
    omega

theorem exists_token_of_scan {p q rest : List Char} {c : Char} {kind : TokenKind}
    (h : overhang 0 p (c :: (q ++ rest)) = 0) (hk : (scan c (q ++ rest)).kind = some kind) :
    .of kind (byteLength p) (c :: (q ++ rest).take (scan c (q ++ rest)).more) ∈
      tokens (p ++ c :: (q ++ rest)) := by
  obtain ⟨before, htokens, -⟩ := tokensFrom_append 0 0 p (c :: (q ++ rest))
  rw [tokens, htokens, h, tokensFrom, hk, Nat.zero_add]
  exact List.mem_append_right _ List.mem_cons_self

theorem inToken_of_scan {p q rest : List Char} {c : Char} {kind : TokenKind} (hne : rest ≠ [])
    (h : overhang 0 p (c :: (q ++ rest)) = 0) (hk : (scan c (q ++ rest)).kind = some kind)
    (hq : q.length < (scan c (q ++ rest)).more) :
    InToken (p ++ c :: (q ++ rest)) (byteLength (p ++ c :: q)) := by
  refine ⟨_, exists_token_of_scan h hk, ?_, ?_⟩
  · rw [start_of, byteLength_append, byteLength_cons]
    have := c.utf8Size_pos
    omega
  · obtain ⟨d, rest, rfl⟩ := List.exists_cons_of_ne_nil hne
    obtain ⟨n, hn⟩ := Nat.exists_eq_add_of_lt hq
    have htake : (q ++ d :: rest).take (scan c (q ++ d :: rest)).more = q ++ d :: rest.take n := by
      rw [hn, Nat.add_assoc, List.take_length_add_append, List.take_succ_cons]
    rw [htake]
    refine Nat.lt_of_lt_of_le ?_ (le_stop_of _ _ _)
    simp only [byteLength_append, byteLength_cons]
    have := d.utf8Size_pos
    omega

section Lines

variable {pre lead rest : List Char}

/-- What reaches into a line from before it is a token. -/
theorem exists_scan_of_endsLine (hline : EndsLine pre) (h : 0 < overhang 0 pre rest) :
    ∃ p c q kind, pre = p ++ c :: q ∧ overhang 0 p (c :: (q ++ rest)) = 0 ∧
      q.length < (scan c (q ++ rest)).more ∧ (scan c (q ++ rest)).kind = some kind := by
  obtain hlt | ⟨p, c, q, rfl, hp, hq⟩ := exists_split_of_overhang_pos h
  · exact absurd hlt (Nat.not_lt_zero _)
  cases hk : (scan c (q ++ rest)).kind with
  | some kind => exact ⟨p, c, q, kind, rfl, hp, hq, hk⟩
  | none =>
    obtain ⟨-, hzero⟩ | ⟨rfl, hmore⟩ := scan_kind_none hk
    · omega
    · exfalso
      rw [hmore, countWhile] at hq
      have hcomment : ∀ d ∈ q, isLineEnd d = false := by
        intro d hd
        have hfront : q <+: (q ++ rest).takeWhile (fun d ↦ !isLineEnd d) :=
          List.prefix_of_prefix_length_le (List.prefix_append q rest) (List.takeWhile_prefix _)
            (Nat.le_of_lt hq)
        simpa using List.all_eq_true.mp List.all_takeWhile d (hfront.subset hd)
      cases hlast : q.getLast? with
      | none =>
        obtain rfl : q = [] := List.getLast?_eq_none_iff.mp hlast
        exact absurd (hline '#' (by simp)) (by decide)
      | some d =>
        obtain rfl : d = '\n' := hline d (by simp [List.getLast?_cons, hlast])
        exact absurd (hcomment _ (List.mem_of_getLast? hlast)) (by decide)

theorem inToken_of_overhang (hline : EndsLine pre) (hne : rest ≠ []) (h : 0 < overhang 0 pre rest) :
    InToken (pre ++ rest) (byteLength pre) := by
  obtain ⟨p, c, q, kind, rfl, hp, hq, hk⟩ := exists_scan_of_endsLine hline h
  simpa only [List.append_assoc, List.cons_append] using inToken_of_scan hne hp hk hq

theorem inToken_iff_overhang (hline : EndsLine pre) (hne : rest ≠ [])
    (hfault : ∀ t ∈ tokens (pre ++ rest), ¬ t.kind.isFault) :
    InToken (pre ++ rest) (byteLength pre) ↔ 0 < overhang 0 pre rest := by
  refine ⟨fun h ↦ ?_, inToken_of_overhang hline hne⟩
  by_contra hzero
  exact not_inToken_of_overhang (by omega) hfault h

theorem overhang_blanks (h : overhang 0 pre (lead ++ rest) = 0) (hlead : ∀ c ∈ lead, isBlank c)
    (hfault : ∀ t ∈ tokens (pre ++ (lead ++ rest)), ¬ t.kind.isFault) :
    overhang 0 (pre ++ lead) rest = 0 := by
  induction lead generalizing pre with
  | nil => simpa using h
  | cons c lead ih =>
    obtain ⟨hmore, hkind⟩ := scan_of_isBlank (hlead c (by simp)) (lead ++ rest)
    have hnext : overhang 0 (pre ++ [c]) (lead ++ rest) = 0 := by
      rw [overhang_append, List.singleton_append, ← List.cons_append, h, overhang, List.nil_append,
        overhang_nil, hmore]
    have := ih hnext (fun d hd ↦ hlead d (by simp [hd])) (by simpa using hfault)
    simpa using this

theorem not_inToken_of_blanks (h : overhang 0 pre (lead ++ rest) = 0)
    (hlead : ∀ c ∈ lead, isBlank c)
    (hfault : ∀ t ∈ tokens (pre ++ (lead ++ rest)), ¬ t.kind.isFault) :
    ¬ InToken (pre ++ (lead ++ rest)) (byteLength (pre ++ lead)) := by
  rw [← List.append_assoc] at hfault ⊢
  exact not_inToken_of_overhang
    (overhang_blanks h hlead (by simpa only [List.append_assoc] using hfault)) hfault

theorem scan_comment {body : List Char} (hbody : ∀ c ∈ body, isLineEnd c = false)
    (hrest : ∀ c ∈ rest.head?, isLineEnd c) : scan '#' (body ++ rest) = ⟨none, body.length⟩ := by
  have hnone : rest.takeWhile (fun d ↦ !isLineEnd d) = [] := by
    cases rest with
    | nil => rfl
    | cons c rest => simp [hrest c (by simp)]
  have hscan : scan '#' (body ++ rest) =
      ⟨none, countWhile (fun d ↦ !isLineEnd d) (body ++ rest)⟩ := rfl
  rw [hscan, countWhile, List.takeWhile_append_of_pos (by simpa using hbody), hnone,
    List.append_nil]

theorem overhang_comment {body : List Char} (h : overhang 0 pre ('#' :: (body ++ rest)) = 0)
    (hbody : ∀ c ∈ body, isLineEnd c = false) (hrest : ∀ c ∈ rest.head?, isLineEnd c) :
    overhang 0 (pre ++ '#' :: body) rest = 0 := by
  rw [overhang_append, List.cons_append, h, overhang, scan_comment hbody hrest,
    overhang_of_le (Nat.le_refl _), Nat.sub_self]

theorem overhang_blanks_pos (hline : EndsLine pre) (h : 0 < overhang 0 pre (lead ++ rest))
    (hlead : ∀ c ∈ lead, isBlank c)
    (hfault : ∀ t ∈ tokens (pre ++ (lead ++ rest)), ¬ t.kind.isFault) :
    0 < overhang 0 (pre ++ lead) rest := by
  obtain ⟨p, c, q, kind, rfl, hp, hq, hk⟩ := exists_scan_of_endsLine hline h
  have hkind : ¬ kind.isFault := by
    have ht := exists_token_of_scan hp hk
    have := hfault _ (by simpa only [List.append_assoc, List.cons_append] using ht)
    rwa [kind_of] at this
  have hmore : q.length + lead.length < (scan c (q ++ (lead ++ rest))).more := by
    by_contra hle
    obtain ⟨n, hn⟩ := Nat.exists_eq_add_of_lt hq
    have htake : (q ++ (lead ++ rest)).take (scan c (q ++ (lead ++ rest))).more =
        q ++ lead.take (n + 1) := by
      rw [hn, Nat.add_assoc, List.take_length_add_append, List.take_append_of_le_length (by omega)]
    obtain ⟨d, hd⟩ : ∃ d, (lead.take (n + 1)).getLast? = some d := by
      rw [← Option.isSome_iff_exists, List.getLast?_isSome, List.ne_nil_iff_length_pos,
        List.length_take]
      omega
    refine not_isBlank_of_getLast? (d := d) hk hkind ?_
      (hlead d (List.mem_of_mem_take (List.mem_of_getLast? hd)))
    rw [htake, List.getLast?_append, hd]
    rfl
  rw [List.append_assoc, overhang_append, List.cons_append, List.cons_append, List.append_assoc, hp,
    overhang, List.append_assoc, overhang_of_le (by rw [List.length_append]; omega)]
  rw [List.length_append]
  omega

end Lines

end SchemaBindings.Sdl
