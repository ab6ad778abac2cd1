import Mathlib.Data.List.Forall2

namespace SchemaBindings.Attempt

variable {ε α β : Type}

theorem bind_eq_ok_iff (x : Except ε α) (f : α → Except ε β) (b : β) :
    x >>= f = .ok b ↔ ∃ a, x = .ok a ∧ f a = .ok b := by
  cases x <;> simp [bind, Except.bind]

theorem map_eq_ok_iff (x : Except ε α) (f : α → β) (b : β) :
    x.map f = .ok b ↔ ∃ a, x = .ok a ∧ f a = b := by
  cases x <;> simp [Except.map]

theorem pure_eq_ok_iff (a b : α) : (pure a : Except ε α) = .ok b ↔ a = b := by
  simp [pure, Except.pure]

theorem map_bind {γ : Type} (x : Except ε α) (f : α → Except ε β) (g : β → γ) :
    (x >>= f).map g = x >>= fun a ↦ (f a).map g := by
  cases x <;> rfl

theorem bind_map {γ : Type} (x : Except ε α) (g : α → β) (f : β → Except ε γ) :
    x.map g >>= f = x >>= fun a ↦ f (g a) := by
  cases x <;> rfl

def succeeds (x : Except ε α) (p : α → Bool) : Bool :=
  match x with
  | .ok a => p a
  | .error _ => false

theorem succeeds_iff (x : Except ε α) (p : α → Bool) :
    succeeds x p = true ↔ ∃ a, x = .ok a ∧ p a = true := by
  cases x <;> simp [succeeds]

theorem forall₂_of_mapM {f : α → Except ε β} {as : List α} {bs : List β}
    (h : as.mapM f = .ok bs) : List.Forall₂ (fun a b ↦ f a = .ok b) as bs := by
  induction as generalizing bs with
  | nil =>
    rw [List.mapM_nil, pure_eq_ok_iff] at h
    exact h ▸ .nil
  | cons a as ih =>
    rw [List.mapM_cons] at h
    obtain ⟨b, hb, h⟩ := (bind_eq_ok_iff _ _ _).mp h
    obtain ⟨bs', hbs, h⟩ := (bind_eq_ok_iff _ _ _).mp h
    exact (pure_eq_ok_iff _ _).mp h ▸ .cons hb (ih hbs)

theorem exists_ok_of_mem_mapM {f : α → Except ε β} {as : List α} {bs : List β}
    (h : as.mapM f = .ok bs) : ∀ b ∈ bs, ∃ a ∈ as, f a = .ok b := by
  have hall := forall₂_of_mapM h
  clear h
  induction hall with
  | nil => simp
  | @cons a b as bs hab _ ih =>
    intro b' hb'
    rcases List.mem_cons.mp hb' with rfl | hb'
    · exact ⟨a, List.mem_cons_self, hab⟩
    · obtain ⟨a', ha', he⟩ := ih b' hb'
      exact ⟨a', List.mem_cons_of_mem a ha', he⟩

theorem exists_ok_of_mapM_of_mem {f : α → Except ε β} {as : List α} {bs : List β}
    (h : as.mapM f = .ok bs) : ∀ a ∈ as, ∃ b ∈ bs, f a = .ok b := by
  have hall := forall₂_of_mapM h
  clear h
  induction hall with
  | nil => simp
  | @cons a b as bs hab _ ih =>
    intro a' ha'
    rcases List.mem_cons.mp ha' with rfl | ha'
    · exact ⟨b, List.mem_cons_self, hab⟩
    · obtain ⟨b', hb', he⟩ := ih a' ha'
      exact ⟨b', List.mem_cons_of_mem b hb', he⟩

/-- What every step preserves, with the inputs taken so far in view, a whole run preserves. -/
theorem foldlM_preserves {f : β → α → Except ε β} (P : List α → β → Prop)
    (step : ∀ done a b b', P done b → f b a = .ok b' → P (done ++ [a]) b')
    {as : List α} (done : List α) {b b' : β} (h : as.foldlM f b = .ok b') (hb : P done b) :
    P (done ++ as) b' := by
  induction as generalizing done b with
  | nil =>
    rw [List.foldlM_nil, pure_eq_ok_iff] at h
    simpa [← h] using hb
  | cons a as ih =>
    rw [List.foldlM_cons, bind_eq_ok_iff] at h
    obtain ⟨next, hn, h⟩ := h
    simpa using ih _ h (step done a b next hb hn)

section Failing

def error? (x : Except ε α) : Option ε :=
  match x with
  | .ok _ => none
  | .error e => some e

theorem error?_eq_some_iff (x : Except ε α) (e : ε) : error? x = some e ↔ x = .error e := by
  cases x <;> simp [error?]

theorem error?_eq_none_iff (x : Except ε α) : error? x = none ↔ ∃ a, x = .ok a := by
  cases x <;> simp [error?]

theorem error?_bind (x : Except ε α) (f : α → Except ε β) :
    error? (x >>= f) = match x with
      | .ok a => error? (f a)
      | .error e => some e := by
  cases x <;> rfl

theorem error?_bind_pure (x : Except ε α) (f : α → β) :
    error? (x >>= fun a ↦ pure (f a)) = error? x := by
  cases x <;> rfl

theorem error?_mapM (f : α → Except ε β) (as : List α) :
    error? (as.mapM f) = as.findSome? fun a ↦ error? (f a) := by
  induction as with
  | nil => rfl
  | cons a as ih =>
    rw [List.mapM_cons, List.findSome?_cons, ← ih, error?_bind]
    cases f a with
    | error e => rfl
    | ok b => exact error?_bind_pure _ _

/-- So does a run of steps whose errors do not depend on what was done before. -/
theorem error?_foldlM {f : β → α → Except ε β} {g : α → Option ε}
    (h : ∀ b a, error? (f b a) = g a) (as : List α) (b : β) :
    error? (as.foldlM f b) = as.findSome? g := by
  induction as generalizing b with
  | nil => rfl
  | cons a as ih =>
    rw [List.foldlM_cons, List.findSome?_cons, ← h b a, error?_bind]
    cases f b a with
    | error e => rfl
    | ok next => exact ih next

/-- A computation fails with errors of one sort only. -/
def FailsOnly (P : ε → Prop) (x : Except ε α) : Prop :=
  ∀ e, x = .error e → P e

variable {P : ε → Prop}

theorem failsOnly_of_eq_ok {x : Except ε α} {a : α} (h : x = .ok a) : FailsOnly P x := by
  intro e he
  rw [h] at he
  cases he

theorem FailsOnly.bind {x : Except ε α} {f : α → Except ε β} (hx : FailsOnly P x)
    (hf : ∀ a, x = .ok a → FailsOnly P (f a)) : FailsOnly P (x >>= f) := by
  cases x with
  | error e =>
    rintro e' ⟨⟩
    exact hx e rfl
  | ok a => exact hf a rfl

theorem FailsOnly.mapM {f : α → Except ε β} {as : List α} (h : ∀ a ∈ as, FailsOnly P (f a)) :
    FailsOnly P (as.mapM f) := by
  induction as with
  | nil => exact failsOnly_of_eq_ok rfl
  | cons a as ih =>
    rw [List.mapM_cons]
    refine (h a (by simp)).bind fun b _ ↦ (ih fun a ha ↦ h a (by simp [ha])).bind fun bs _ ↦ ?_
    exact failsOnly_of_eq_ok rfl

theorem FailsOnly.foldlM {f : β → α → Except ε β} (h : ∀ b a, FailsOnly P (f b a)) (as : List α)
    (b : β) : FailsOnly P (as.foldlM f b) := by
  induction as generalizing b with
  | nil => exact failsOnly_of_eq_ok rfl
  | cons a as ih =>
    rw [List.foldlM_cons]
    exact (h b a).bind fun next _ ↦ ih next

end Failing

theorem map_eq_of_mapM {γ : Type} {f : α → Except ε β} (key : β → γ) (select : α → γ)
    {as : List α} {bs : List β} (h : as.mapM f = .ok bs)
    (hkey : ∀ a b, f a = .ok b → key b = select a) : bs.map key = as.map select := by
  have hall := forall₂_of_mapM h
  clear h
  induction hall with
  | nil => rfl
  | cons hab _ ih => rw [List.map_cons, List.map_cons, hkey _ _ hab, ih]

theorem mapM_eq_ok_map {f : α → Except ε β} {g : α → β} {as : List α}
    (h : ∀ a ∈ as, f a = .ok (g a)) : as.mapM f = .ok (as.map g) := by
  induction as with
  | nil => rfl
  | cons a as ih =>
    rw [List.mapM_cons, h a (by simp), ih fun b hb ↦ h b (by simp [hb])]
    rfl

theorem mapM_eq_ok_iff {f : α → Except ε β} {p : α → Prop} {g : α → β}
    (h : ∀ a b, f a = .ok b ↔ p a ∧ b = g a) (as : List α) (bs : List β) :
    as.mapM f = .ok bs ↔ (∀ a ∈ as, p a) ∧ bs = as.map g := by
  induction as generalizing bs with
  | nil =>
    rw [List.mapM_nil, pure_eq_ok_iff]
    simp [eq_comm]
  | cons a as ih =>
    simp only [List.mapM_cons, bind_eq_ok_iff, pure_eq_ok_iff, h, ih, List.forall_mem_cons,
      List.map_cons]
    constructor
    · rintro ⟨_, ⟨ha, rfl⟩, _, ⟨has, rfl⟩, rfl⟩
      exact ⟨⟨ha, has⟩, rfl⟩
    · rintro ⟨⟨ha, has⟩, rfl⟩
      exact ⟨_, ⟨ha, rfl⟩, _, ⟨has, rfl⟩, rfl⟩

theorem forM_eq_ok_iff {f : α → Except ε Unit} {p : α → Prop} (h : ∀ a, f a = .ok () ↔ p a)
    (as : List α) : as.forM f = .ok () ↔ ∀ a ∈ as, p a := by
  induction as with
  | nil => exact iff_of_true rfl (by simp)
  | cons a as ih =>
    have hcons : (a :: as).forM f = f a >>= fun _ ↦ as.forM f := rfl
    rw [hcons, bind_eq_ok_iff, List.forall_mem_cons, ← h a, ← ih]
    constructor
    · rintro ⟨⟨⟩, ha, has⟩
      exact ⟨ha, has⟩
    · rintro ⟨ha, has⟩
      exact ⟨(), ha, has⟩

section Refining

variable {α' β' : Type} {x : Except ε α} {x' : Except ε α'} {R : α → α' → Prop} {S : β → β' → Prop}

/-- The second computation succeeds where the first does, with a related result. -/
def Refines (R : α → α' → Prop) (x : Except ε α) (x' : Except ε α') : Prop :=
  ∀ a, x = .ok a → ∃ a', x' = .ok a' ∧ R a a'

theorem refines_ok {a : α} {a' : α'} (h : R a a') :
    Refines R (.ok a : Except ε α) (.ok a' : Except ε α') := by
  rintro _ ⟨⟩
  exact ⟨a', rfl, h⟩

theorem refines_error (e : ε) : Refines R (.error e) x' :=
  nofun

theorem refines_refl (x : Except ε α) : Refines Eq x x :=
  fun a h ↦ ⟨a, h, rfl⟩

theorem Refines.bind {f : α → Except ε β} {f' : α' → Except ε β'} (hx : Refines R x x')
    (hf : ∀ a a', R a a' → Refines S (f a) (f' a')) : Refines S (x >>= f) (x' >>= f') := by
  intro b hb
  obtain ⟨a, ha, hb⟩ := (bind_eq_ok_iff _ _ _).mp hb
  obtain ⟨a', ha', hR⟩ := hx a ha
  obtain ⟨b', hb', hS⟩ := hf a a' hR b hb
  exact ⟨b', (bind_eq_ok_iff _ _ _).mpr ⟨a', ha', hb'⟩, hS⟩

theorem refines_mapM {f : α → Except ε β} {f' : α → Except ε β'}
    (hf : ∀ a, Refines S (f a) (f' a)) (as : List α) :
    Refines (List.Forall₂ S) (as.mapM f) (as.mapM f') := by
  induction as with
  | nil => exact refines_ok .nil
  | cons a as ih =>
    rw [List.mapM_cons, List.mapM_cons]
    refine (hf a).bind fun b b' hb ↦ ih.bind fun bs bs' hbs ↦ ?_
    exact refines_ok (.cons hb hbs)

theorem refines_foldlM {f : β → α → Except ε β} {f' : β' → α → Except ε β'}
    (hf : ∀ b b' a, S b b' → Refines S (f b a) (f' b' a)) (as : List α) {b : β} {b' : β'}
    (h : S b b') : Refines S (as.foldlM f b) (as.foldlM f' b') := by
  induction as generalizing b b' with
  | nil => exact refines_ok h
  | cons a as ih =>
    rw [List.foldlM_cons, List.foldlM_cons]
    exact (hf b b' a h).bind fun next next' hnext ↦ ih hnext

end Refining

theorem exists_mapM_eq_some {f : α → Option β} {as : List α}
    (h : ∀ a ∈ as, ∃ b, f a = some b) : ∃ bs, as.mapM f = some bs := by
  induction as with
  | nil => exact ⟨[], rfl⟩
  | cons a as ih =>
    obtain ⟨b, hb⟩ := h a (by simp)
    obtain ⟨bs, hbs⟩ := ih fun a ha ↦ h a (by simp [ha])
    exact ⟨b :: bs, by rw [List.mapM_cons, hb, hbs]; rfl⟩

end SchemaBindings.Attempt
