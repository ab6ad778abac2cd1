import SchemaBindings.Proofs.Sdl.Reading
import SchemaBindings.Sdl.Lexer

namespace SchemaBindings.Sdl

open Text

def IsPlain (k : TokenKind) : Prop :=
  k ≠ .endOfInput ∧ ∀ p, k ≠ .punctuator p

theorem plain_scanString (cs : List Char) : ∀ k, (scanString cs).kind = some k → IsPlain k := by
  fun_induction scanString cs with
  | case1 => rintro k ⟨⟩; exact ⟨by simp, by simp⟩
  | case2 => rintro k ⟨⟩; exact ⟨by simp, by simp⟩
  | case3 _ cs rest ih => exact ih
  | case4 => rintro k ⟨⟩; exact ⟨by simp, by simp⟩
  | case5 => rintro k ⟨⟩; exact ⟨by simp, by simp⟩
  | case6 _ _ _ _ _ _ rest ih => exact ih

theorem plain_scanBlockString (cs : List Char) :
    ∀ k, (scanBlockString cs).kind = some k → IsPlain k := by
  fun_induction scanBlockString cs with
  | case1 => rintro k ⟨⟩; exact ⟨by simp, by simp⟩
  | case2 => rintro k ⟨⟩; exact ⟨by simp, by simp⟩
  | case3 cs rest ih => exact ih
  | case4 _ cs _ _ rest ih => exact ih

theorem plain_scanNumber (first : Char) (cs : List Char) :
    ∀ k, (scanNumber first cs).kind = some k → IsPlain k := by
  intro k h
  unfold scanNumber at h
  simp only at h
  repeat' split at h
  all_goals
    cases h
    exact ⟨by simp, by simp⟩

theorem plain_scanName (first : Char) (cs : List Char) :
    ∀ k, (scanName first cs).kind = some k → IsPlain k := by
  intro k h
  unfold scanName at h
  simp only at h
  split at h
  all_goals
    cases h
    exact ⟨by simp, by simp⟩

theorem text_ofChar? {c : Char} {p : Punctuator} (h : Punctuator.ofChar? c = some p) :
    p.text.toList = [c] := by
  unfold Punctuator.ofChar? at h
  split at h <;> cases h <;> decide

theorem kind_scan (c : Char) (cs : List Char) (k : TokenKind) (h : (scan c cs).kind = some k) :
    IsPlain k ∨ ∃ p, k = .punctuator p ∧ c :: cs.take (scan c cs).more = p.text.toList := by
  have hplain (hs : IsPlain k) : IsPlain k ∨
      ∃ p, k = .punctuator p ∧ c :: cs.take (scan c cs).more = p.text.toList := Or.inl hs
  by_cases hsep : isSeparator c
  · simp [scan, hsep] at h
  by_cases hcomment : c == '#'
  · simp [scan, hsep, hcomment] at h
  by_cases hquote : c == '"'
  · simp only [scan, hsep, hcomment, hquote, Bool.false_eq_true, if_false, if_true] at h
    split at h
    · exact hplain (plain_scanBlockString _ _ h)
    · exact hplain (plain_scanString _ _ h)
  by_cases hnumber : c == '-' || c.isDigit
  · simp only [scan, hsep, hcomment, hquote, hnumber, Bool.false_eq_true, if_false, if_true] at h
    exact hplain (plain_scanNumber _ _ _ h)
  by_cases hname : isNameStart c
  · simp only [scan, hsep, hcomment, hquote, hnumber, hname, Bool.false_eq_true, if_false,
      if_true] at h
    exact hplain (plain_scanName _ _ _ h)
  clear hplain
  simp only [scan, hsep, hcomment, hquote, hnumber, hname, Bool.false_eq_true, if_false] at h ⊢
  cases hp : Punctuator.ofChar? c with
  | some p =>
    simp only [hp] at h ⊢
    cases h
    exact Or.inr ⟨p, rfl, (text_ofChar? hp).symm⟩
  | none =>
    simp only [hp] at h ⊢
    split at h
    · cases h
      exact Or.inr ⟨.spread, rfl, rfl⟩
    · cases h
      exact Or.inl ⟨by simp, by simp⟩

theorem kind_of (kind : TokenKind) (offset : Nat) (text : List Char) :
    (Token.of kind offset text).kind = kind := by
  unfold Token.of
  split <;> rfl

theorem start_of (kind : TokenKind) (offset : Nat) (text : List Char) :
    (Token.of kind offset text).span.start = offset := by
  unfold Token.of
  split <;> rfl

theorem stop_of {kind : TokenKind} (h : kind ≠ .cutEscape) (offset : Nat) (text : List Char) :
    (Token.of kind offset text).span.stop = offset + byteLength text := by
  unfold Token.of
  split
  · exact absurd rfl h
  · rfl

theorem start_le_of (kind : TokenKind) (offset : Nat) (text : List Char) :
    (Token.of kind offset text).span.start ≤ (Token.of kind offset text).span.stop := by
  unfold Token.of
  split <;> simp only <;> omega

theorem le_stop_of (kind : TokenKind) (offset : Nat) (text : List Char) :
    offset + byteLength text ≤ (Token.of kind offset text).span.stop := by
  unfold Token.of
  split <;> simp only <;> omega

theorem text_of {kind : TokenKind} (h : kind ≠ .cutEscape) (offset : Nat) (text : List Char) :
    (Token.of kind offset text).text = text := by
  unfold Token.of
  split
  · exact absurd rfl h
  · rfl

/-- A token is what the scan finds at its start. -/
theorem exists_scan_of_mem_tokensFrom {skip offset : Nat} {cs : List Char} {t : Token}
    (h : t ∈ tokensFrom skip offset cs) : ∃ p c q kind, cs = p ++ c :: q ∧
      (scan c q).kind = some kind ∧
      t = .of kind (offset + byteLength p) (c :: q.take (scan c q).more) := by
  induction cs generalizing skip offset with
  | nil => cases skip <;> cases h
  | cons c cs ih =>
    have hlater {skip : Nat} (h : t ∈ tokensFrom skip (offset + c.utf8Size) cs) :
        ∃ p d q kind, c :: cs = p ++ d :: q ∧ (scan d q).kind = some kind ∧
          t = .of kind (offset + byteLength p) (d :: q.take (scan d q).more) := by
      obtain ⟨p, d, q, kind, rfl, hk, rfl⟩ := ih h
      exact ⟨c :: p, d, q, kind, rfl, hk, by rw [byteLength_cons, Nat.add_assoc]⟩
    cases skip with
    | succ skip => exact hlater h
    | zero =>
      rw [tokensFrom] at h
      cases hk : (scan c cs).kind with
      | none => exact hlater (by simpa [hk] using h)
      | some kind =>
        simp only [hk, List.mem_cons] at h
        rcases h with rfl | h
        · exact ⟨[], c, cs, kind, rfl, hk, rfl⟩
        · exact hlater h

theorem inOrder_tokensFrom (skip offset : Nat) (cs : List Char) :
    InOrder (tokensFrom skip offset cs) ∧
      ∀ t ∈ tokensFrom skip offset cs, offset ≤ t.span.start := by
  induction cs generalizing skip offset with
  | nil => cases skip <;> exact ⟨⟨by simp [tokensFrom], by simp [tokensFrom], by simp [tokensFrom],
      by simp [tokensFrom]⟩, by simp [tokensFrom]⟩
  | cons c cs ih =>
    cases skip with
    | succ skip =>
      obtain ⟨hord, hstart⟩ := ih skip (offset + c.utf8Size)
      rw [tokensFrom]
      exact ⟨hord, fun t ht ↦ Nat.le_trans (Nat.le_add_right _ _) (hstart t ht)⟩
    | zero =>
      obtain ⟨hord, hstart⟩ := ih (scan c cs).more (offset + c.utf8Size)
      have hrest (t : Token) (ht : t ∈ tokensFrom (scan c cs).more (offset + c.utf8Size) cs) :
          offset ≤ t.span.start := Nat.le_trans (Nat.le_add_right _ _) (hstart t ht)
      rw [tokensFrom]
      split
      · exact ⟨hord, hrest⟩
      next kind hk =>
        have hkind := kind_scan c cs kind hk
        refine ⟨⟨?_, ?_, ?_, ?_⟩, ?_⟩
        · intro t ht
          rcases List.mem_cons.mp ht with rfl | ht
          · rw [kind_of]
            rcases hkind with hp | ⟨p, rfl, -⟩
            · exact hp.1
            · simp
          · exact hord.kind_ne t ht
        · intro t ht
          rcases List.mem_cons.mp ht with rfl | ht
          · intro p hp
            rw [kind_of] at hp
            subst hp
            rcases hkind with hp | ⟨q, hq, htext⟩
            · exact absurd rfl (hp.2 p)
            · cases hq
              rw [text_of (by simp), htext]
          · exact hord.text_eq t ht
        · intro t ht
          rcases List.mem_cons.mp ht with rfl | ht
          · exact start_le_of _ _ _
          · exact hord.start_le t ht
        · refine List.pairwise_cons.mpr ⟨fun t ht ↦ ?_, hord.pairwise⟩
          rw [start_of]
          exact Nat.le_trans (hrest t ht) (hord.start_le t ht)
        · intro t ht
          rcases List.mem_cons.mp ht with rfl | ht
          · exact Nat.le_of_eq (start_of _ _ _).symm
          · exact hrest t ht

theorem inOrder_tokens (cs : List Char) : InOrder (tokens cs) :=
  (inOrder_tokensFrom 0 0 cs).1

end SchemaBindings.Sdl
