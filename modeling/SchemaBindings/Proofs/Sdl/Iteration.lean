import SchemaBindings.Proofs.Sdl.Parsing

namespace SchemaBindings.Sdl.Parser

variable {α β : Type}

theorem ext_run {p q : Parser α} (h : ∀ c, p.run c = q.run c) : p = q := by
  cases p
  cases q
  congr
  exact funext h

/-- At `c` the parser takes at least one token. -/
def Takes (p : Parser α) (c : Cursor) : Prop :=
  (p.run c).2.upcoming.length < c.upcoming.length

/-- If the parser yields something at `c`, it takes at least one token for it. -/
def Pays (p : Parser (Option α)) (c : Cursor) : Prop :=
  (p.run c).1.isSome → p.Takes c

/-- One turn of a loop that goes on as long as there are tokens and the current one satisfies
`more`. -/
def turn (more : TokenKind → Bool) (item : Parser α) : Parser (Option α) := do
  if (← look Cursor.atEnd) || !more (← kind) then return none
  else return some (← item)

/-- From the first cursor on the turns yield a list and then nothing more. Every turn but the last
takes at least one token. -/
inductive Iterates (p : Parser (Option α)) : Cursor → List α → Cursor → Prop
  | last {c d : Cursor} (h : p.run c = (none, d)) : Iterates p c [] d
  | next {c d e : Cursor} {a : α} {as : List α} (h : p.run c = (some a, d))
      (hlt : d.upcoming.length < c.upcoming.length) (hrest : Iterates p d as e) :
      Iterates p c (a :: as) e

section Taking

variable {p : Parser α} {c : Cursor}

theorem Takes.bind (h : p.Takes c) (f : α → Parser β) : (p >>= f).Takes c :=
  Nat.lt_of_le_of_lt ((f _).forward _).length_le h

theorem takes_bind {f : α → Parser β} (h : (f (p.run c).1).Takes (p.run c).2) :
    (p >>= f).Takes c :=
  Nat.lt_of_lt_of_le h (p.forward c).length_le

theorem takes_kind_bind {f : TokenKind → Parser β} (h : (f c.kind).Takes c) :
    (kind >>= f).Takes c :=
  takes_bind h

theorem takes_advance (h : c.atEnd = false) : advance.Takes c :=
  Cursor.length_upcoming_advance_lt h

theorem takes_progress (p : Parser α) (h : c.atEnd = false) : p.progress.Takes c :=
  length_progress_lt p h

theorem run_progress (p : Parser α) (c : Cursor) : p.progress.run c =
    if (p.run c).2.upcoming.length = c.upcoming.length then ((p.run c).1, (p.run c).2.advance)
    else p.run c := by
  change ((if (p.run c).2.upcoming.length = c.upcoming.length then
    advance >>= fun _ ↦ pure (p.run c).1 else pure (p.run c).1).run (p.run c).2) = _
  split <;> rfl

theorem run_progress_of_takes (h : p.Takes c) : p.progress.run c = p.run c := by
  rw [run_progress, if_neg (Nat.ne_of_lt h)]

theorem pays_bind {f : α → Parser (Option β)} (h : (f (p.run c).1).Pays (p.run c).2) :
    (p >>= f).Pays c :=
  fun hsome ↦ takes_bind (h hsome)

theorem pays_kind_bind {f : TokenKind → Parser (Option β)} (h : (f c.kind).Pays c) :
    (kind >>= f).Pays c :=
  pays_bind h

theorem pays_none : (pure none : Parser (Option α)).Pays c := by
  intro hsome
  cases hsome

theorem Takes.pays {p : Parser (Option α)} (h : p.Takes c) : p.Pays c :=
  fun _ ↦ h

theorem run_turn (more : TokenKind → Bool) (item : Parser α) (c : Cursor) :
    (turn more item).run c =
      if c.atEnd || !more c.kind then (none, c) else (some (item.run c).1, (item.run c).2) := by
  change ((if c.atEnd || !more c.kind then pure none
    else item >>= fun a ↦ pure (some a) : Parser (Option α)).run c) = _
  split <;> rfl

theorem pays_turn {more : TokenKind → Bool} (h : c.atEnd = false → more c.kind → p.Takes c) :
    (turn more p).Pays c := by
  intro hsome
  rw [Takes, run_turn]
  rw [run_turn] at hsome
  cases hend : c.atEnd || !more c.kind with
  | true => simp [hend] at hsome
  | false =>
    simp only [Bool.or_eq_false_iff, Bool.not_eq_false'] at hend
    simpa [hend, Takes] using h hend.1 hend.2

end Taking

section Loops

variable {p : Parser (Option α)}

theorem iterates_collect (h : ∀ c, p.Pays c) (c : Cursor) :
    Iterates p c (p.collect.run c).1 (p.collect.run c).2 := by
  have hmain (n : Nat) : ∀ d : Cursor, d.upcoming.length < n →
      Iterates p d ((p.collectUpTo n).run d).1 ((p.collectUpTo n).run d).2 := by
    induction n with
    | zero => exact fun d hd ↦ absurd hd (Nat.not_lt_zero _)
    | succ n ih =>
      intro d hd
      have hpays := h d
      rw [Pays, Takes] at hpays
      simp only [collectUpTo, bind]
      generalize hrun : p.run d = result at hpays ⊢
      obtain ⟨found, e⟩ := result
      cases found with
      | none => exact .last hrun
      | some a =>
        have hlt := hpays rfl
        exact .next hrun hlt (ih e (by change e.upcoming.length < _ at hlt; omega))
  exact hmain (c.upcoming.length + 1) c (Nat.lt_succ_self _)

theorem many_eq_collect {more : TokenKind → Bool} {item : Parser α}
    (h : ∀ c, c.atEnd = false → more c.kind → item.Takes c) :
    many more item = (turn more item).collect := by
  change (turn more item.progress).collect = _
  congr 1
  apply ext_run
  intro c
  rw [run_turn, run_turn]
  cases hend : c.atEnd || !more c.kind with
  | true => rfl
  | false =>
    simp only [Bool.or_eq_false_iff, Bool.not_eq_false'] at hend
    rw [run_progress_of_takes (h c hend.1 hend.2)]

end Loops

section Nesting

/-- The parsers do the same wherever fewer tokens are left than at `c`. -/
def AgreeBehind (c : Cursor) (p q : Parser α) : Prop :=
  ∀ d, d.upcoming.length < c.upcoming.length → p.run d = q.run d

/-- The parser uses the one inside it only after it has taken a token. -/
def CallsLater (step : Parser α → Parser α) : Prop :=
  ∀ c p q, AgreeBehind c p q → (step p).run c = (step q).run c

variable {p q : Parser α} {c : Cursor}

theorem run_bind_congr {f g : α → Parser β}
    (h : (f (p.run c).1).run (p.run c).2 = (g (p.run c).1).run (p.run c).2) :
    (p >>= f).run c = (p >>= g).run c :=
  h

theorem run_bind_congr_left (h : p.run c = q.run c) (f : α → Parser β) :
    (p >>= f).run c = (q >>= f).run c := by
  change (f (p.run c).1).run (p.run c).2 = (f (q.run c).1).run (q.run c).2
  rw [h]

theorem run_collect_congr {p q : Parser (Option α)}
    (h : ∀ d, d.upcoming.length ≤ c.upcoming.length → p.run d = q.run d) :
    p.collect.run c = q.collect.run c := by
  have hmain (n : Nat) : ∀ d : Cursor, d.upcoming.length ≤ c.upcoming.length →
      (p.collectUpTo n).run d = (q.collectUpTo n).run d := by
    induction n with
    | zero => exact fun _ _ ↦ rfl
    | succ n ih =>
      intro d hd
      have hle := (q.forward d).length_le.trans hd
      simp only [collectUpTo, bind, h d hd]
      cases (q.run d).1 with
      | none => rfl
      | some a => exact congrArg (fun r ↦ (a :: r.1, r.2)) (ih _ hle)
  exact hmain (c.upcoming.length + 1) c le_rfl

theorem run_many_congr (more : TokenKind → Bool)
    (h : ∀ d, d.upcoming.length ≤ c.upcoming.length → p.run d = q.run d) :
    (many more p).run c = (many more q).run c := by
  apply run_collect_congr
  intro d hd
  change (turn more p.progress).run d = (turn more q.progress).run d
  rw [run_turn, run_turn]
  rw [run_progress, run_progress, h d hd]

theorem nested_eq [Inhabited α] {step : Parser α → Parser α} (h : CallsLater step) :
    nested step = step (nested step) := by
  -- The fuel is enough as soon as it exceeds the number of tokens.
  have hfuel (n : Nat) : ∀ m d, d.upcoming.length < n → d.upcoming.length < m →
      (unfoldUpTo step n).run d = (unfoldUpTo step m).run d := by
    induction n with
    | zero => exact fun _ _ hd ↦ absurd hd (Nat.not_lt_zero _)
    | succ n ih =>
      intro m d hn hm
      cases m with
      | zero => exact absurd hm (Nat.not_lt_zero _)
      | succ m =>
        apply h
        intro e he
        exact ih m e (by omega) (by omega)
  apply ext_run
  intro c
  apply h
  intro d hd
  exact hfuel _ _ d hd (Nat.lt_succ_self _)

end Nesting

end SchemaBindings.Sdl.Parser
