import SchemaBindings.Model.Stable
import SchemaBindings.Proofs.Model.References

namespace SchemaBindings.Model

section Thinned

variable {α : Type}

/-- The second list is the first without some entries that are `gone`. The entries that stay keep
their order and become entries that are the `same`. -/
inductive Thinned (gone : α → Prop) (same : α → α → Prop) : List α → List α → Prop
  | nil : Thinned gone same [] []
  | drop {a : α} {as bs : List α} (ha : gone a) (h : Thinned gone same as bs) :
      Thinned gone same (a :: as) bs
  | keep {a b : α} {as bs : List α} (hab : same a b) (h : Thinned gone same as bs) :
      Thinned gone same (a :: as) (b :: bs)

variable {gone : α → Prop} {same : α → α → Prop} {p : α → Bool} {as : List α}

theorem thinned_map_filter {f : α → α} (hgone : ∀ a ∈ as, p a = false → gone a)
    (hsame : ∀ a, same a (f a)) : Thinned gone same as ((as.filter p).map f) := by
  induction as with
  | nil => exact .nil
  | cons a as ih =>
    have hrest := ih fun b hb ↦ hgone b (by simp [hb])
    cases hp : p a with
    | true =>
      rw [List.filter_cons_of_pos hp, List.map_cons]
      exact .keep (hsame a) hrest
    | false =>
      rw [List.filter_cons_of_neg (by simp [hp])]
      exact .drop (hgone a (by simp) hp) hrest

theorem thinned_filter (hgone : ∀ a ∈ as, p a = false → gone a) :
    Thinned gone Eq as (as.filter p) := by
  have h := thinned_map_filter (f := id) hgone fun a ↦ rfl
  rwa [List.map_id] at h

theorem thinned_map {f : α → α} (hsame : ∀ a, same a (f a)) : Thinned gone same as (as.map f) := by
  induction as with
  | nil => exact .nil
  | cons a as ih => exact .keep (hsame a) ih

end Thinned

theorem Status.isFuture_eq_true_iff (s : Status) : s.isFuture = true ↔ s = .future := by
  cases s <;> decide

theorem Status.isFuture_eq_false_iff (s : Status) : s.isFuture = false ↔ s = .stable := by
  cases s <;> decide

def declarations (m : Model) : List (Status × String) :=
  m.scalars.map (fun t ↦ (t.status, t.name)) ++ m.enums.map (fun t ↦ (t.status, t.name)) ++
    m.interfaces.map (fun t ↦ (t.status, t.name)) ++ m.objects.map (fun t ↦ (t.status, t.name)) ++
    m.inputs.map (fun t ↦ (t.status, t.name)) ++ m.unions.map (fun t ↦ (t.status, t.name))

def IsFuture (m : Model) (name : String) : Prop :=
  (.future, name) ∈ m.declarations

def statuses (m : Model) : List Status :=
  m.declarations.map (·.1) ++ (m.enums.flatMap (·.values)).map (·.status) ++
    (m.records.flatMap (·.fields)).map (·.status) ++ (m.inputs.flatMap (·.fields)).map (·.status) ++
    (m.unions.flatMap (·.members)).map (·.status) ++
    (m.operations.flatMap (·.fields)).map (·.status)

def referredNames (m : Model) : List String :=
  m.types.map TypeExpr.name ++ m.records.flatMap (·.implements) ++ m.memberTypes

variable (m : Model)

/-- What has a status and refers to some names is future itself or refers to what is. -/
def Excludes (status : Status) (names : List String) : Prop :=
  status = .future ∨ ∃ name ∈ names, m.IsFuture name

structure EnumType.ThinnedTo (e e' : EnumType) : Prop where
  rest : e' = { e with values := e'.values, aliases := e'.aliases }
  values : Thinned (·.status = .future) Eq e.values e'.values
  aliases : Thinned (fun a ↦ ∀ v ∈ e'.values, v.name ≠ a.canonical) Eq e.aliases e'.aliases

structure RecordType.ThinnedTo (r r' : RecordType) : Prop where
  rest : r' = { r with implements := r'.implements, fields := r'.fields }
  implements : Thinned m.IsFuture Eq r.implements r'.implements
  fields : Thinned (fun f ↦ m.Excludes f.status (f.types.map (·.name))) Eq r.fields r'.fields

structure InputType.ThinnedTo (i i' : InputType) : Prop where
  rest : i' = { i with fields := i'.fields }
  fields : Thinned (fun f ↦ m.Excludes f.status (f.types.map (·.name))) Eq i.fields i'.fields

structure UnionType.ThinnedTo (u u' : UnionType) : Prop where
  rest : u' = { u with members := u'.members }
  members : Thinned (fun c ↦ m.Excludes c.status [c.typeName]) Eq u.members u'.members

structure Operation.ThinnedTo (o o' : Operation) : Prop where
  rest : o' = { o with fields := o'.fields }
  fields : Thinned (fun f ↦ m.Excludes f.status (f.types.map (·.name))) Eq o.fields o'.fields

/-- A model without some declarations that are marked as future, and without some members that are
so marked or refer to them. All else is as it was. -/
structure ThinnedTo (m' : Model) : Prop where
  metadata : m'.metadata = m.metadata
  scalars : Thinned (·.status = .future) Eq m.scalars m'.scalars
  enums : Thinned (·.status = .future) EnumType.ThinnedTo m.enums m'.enums
  interfaces : Thinned (·.status = .future) (RecordType.ThinnedTo m) m.interfaces m'.interfaces
  objects : Thinned (·.status = .future) (RecordType.ThinnedTo m) m.objects m'.objects
  inputs : Thinned (·.status = .future) (InputType.ThinnedTo m) m.inputs m'.inputs
  unions : Thinned (·.status = .future) (UnionType.ThinnedTo m) m.unions m'.unions
  operations : Thinned (fun _ ↦ False) (Operation.ThinnedTo m) m.operations m'.operations
  platformDefaults : m'.platformDefaults = m.platformDefaults

/-- What is left of a model once all that is future is taken out, and no more than that. -/
structure StablePart (m' : Model) : Prop where
  stable : ∀ status ∈ m'.statuses, status = .stable
  closed : ∀ name ∈ m'.referredNames, ¬ m.IsFuture name
  aliases : ∀ e ∈ m'.enums, ∀ a ∈ e.aliases, ∃ v ∈ e.values, v.name = a.canonical
  thinned : m.ThinnedTo m'

section Keeping

variable {m}

theorem mem_future_iff (entries : List (Status × String)) (name : String) :
    name ∈ (entries.filter (·.1.isFuture)).map (·.2) ↔ (Status.future, name) ∈ entries := by
  simp only [List.mem_map, List.mem_filter, Status.isFuture_eq_true_iff]
  constructor
  · intro h
    obtain ⟨⟨status, _⟩, ⟨hmem, rfl⟩, rfl⟩ := h
    exact hmem
  · exact fun h ↦ ⟨_, ⟨h, rfl⟩, rfl⟩

theorem mem_futureTypes_iff (name : String) : name ∈ m.futureTypes ↔ m.IsFuture name := by
  simp only [futureTypes, mem_future_iff, IsFuture, declarations, List.mem_append]

theorem excludes_cons_iff (status : Status) (name : String) (names : List String) :
    m.Excludes status (name :: names) ↔ m.IsFuture name ∨ m.Excludes status names := by
  simp only [Excludes, List.exists_mem_cons_iff]
  exact or_left_comm

theorem keepsType_iff (e : TypeExpr) : keepsType m.futureTypes e ↔ ¬ m.IsFuture e.name := by
  rw [keepsType, Bool.not_eq_true', ← Bool.not_eq_true, List.contains_iff_mem, mem_futureTypes_iff]

theorem keepsArguments_iff (status : Status) (arguments : List Argument) :
    (!status.isFuture && keepsArguments m.futureTypes arguments) = true ↔
      ¬ m.Excludes status ((arguments.map (·.type)).map TypeExpr.name) := by
  simp only [keepsArguments, Bool.and_eq_true, Bool.not_eq_true', List.all_eq_true, keepsType_iff,
    Excludes, not_or, not_exists, not_and, List.map_map, List.forall_mem_map]
  rw [← Bool.not_eq_true, Status.isFuture_eq_true_iff]
  rfl

theorem keepsField_iff (f : Field) :
    keepsField m.futureTypes f ↔ ¬ m.Excludes f.status (f.types.map (·.name)) := by
  have harguments := keepsArguments_iff (m := m) f.status f.arguments
  rw [Bool.and_eq_true] at harguments
  rw [Field.types, List.map_cons, excludes_cons_iff, not_or, ← harguments, ← keepsType_iff,
    keepsField, Bool.and_eq_true, Bool.and_eq_true]
  tauto

theorem keepsOperationField_iff (f : OperationField) :
    keepsOperationField m.futureTypes f ↔ ¬ m.Excludes f.status (f.types.map (·.name)) := by
  have harguments := keepsArguments_iff (m := m) f.status f.arguments
  rw [Bool.and_eq_true] at harguments
  rw [OperationField.types, List.map_cons, excludes_cons_iff, not_or, ← harguments,
    ← keepsType_iff, keepsOperationField, Bool.and_eq_true, Bool.and_eq_true]
  tauto

theorem keepsMember_iff (c : UnionMember) :
    keepsMember m.futureTypes c ↔ ¬ m.Excludes c.status [c.typeName] := by
  rw [keepsMember, Bool.and_eq_true, Bool.not_eq_true', ← Bool.not_eq_true,
    Status.isFuture_eq_true_iff, Bool.not_eq_true', ← Bool.not_eq_true, List.contains_iff_mem,
    mem_futureTypes_iff, Excludes, not_or]
  simp only [List.mem_singleton, exists_eq_left]

theorem mem_map_stable_iff {α : Type} {status : α → Status} {f : α → α} {as : List α} {b : α} :
    b ∈ (as.filter fun a ↦ !(status a).isFuture).map f ↔
      ∃ a ∈ as, status a = .stable ∧ f a = b := by
  simp only [List.mem_map, List.mem_filter, Bool.not_eq_true', Status.isFuture_eq_false_iff,
    and_assoc]

theorem mem_enums_stable_iff (e' : EnumType) :
    e' ∈ m.stable.enums ↔ ∃ e ∈ m.enums, e.status = .stable ∧ e.stable = e' :=
  mem_map_stable_iff

theorem mem_records_stable_iff (r' : RecordType) :
    r' ∈ m.stable.records ↔
      ∃ r ∈ m.records, r.status = .stable ∧ r.stable m.futureTypes = r' := by
  rw [records, records, List.mem_append]
  simp only [List.mem_append, or_and_right, exists_or]
  exact or_congr mem_map_stable_iff mem_map_stable_iff

theorem mem_inputs_stable_iff (i' : InputType) :
    i' ∈ m.stable.inputs ↔ ∃ i ∈ m.inputs, i.status = .stable ∧ i.stable m.futureTypes = i' :=
  mem_map_stable_iff

theorem mem_unions_stable_iff (u' : UnionType) :
    u' ∈ m.stable.unions ↔ ∃ u ∈ m.unions, u.status = .stable ∧ u.stable m.futureTypes = u' :=
  mem_map_stable_iff

theorem mem_operations_stable_iff (o' : Operation) :
    o' ∈ m.stable.operations ↔ ∃ o ∈ m.operations, o.stable m.futureTypes = o' :=
  List.mem_map

theorem not_excludes_of_mem_records {r : RecordType} (hr : r ∈ m.stable.records) :
    ∀ f ∈ r.fields, ¬ m.Excludes f.status (f.types.map (·.name)) := by
  obtain ⟨r, -, -, rfl⟩ := (mem_records_stable_iff r).mp hr
  intro f hf
  have hkept := (List.mem_filter.mp hf).2
  exact (keepsField_iff f).mp hkept

theorem not_excludes_of_mem_inputs {i : InputType} (hi : i ∈ m.stable.inputs) :
    ∀ f ∈ i.fields, ¬ m.Excludes f.status (f.types.map (·.name)) := by
  obtain ⟨i, -, -, rfl⟩ := (mem_inputs_stable_iff i).mp hi
  intro f hf
  have hkept := (List.mem_filter.mp hf).2
  exact (keepsField_iff f).mp hkept

theorem not_excludes_of_mem_unions {u : UnionType} (hu : u ∈ m.stable.unions) :
    ∀ c ∈ u.members, ¬ m.Excludes c.status [c.typeName] := by
  obtain ⟨u, -, -, rfl⟩ := (mem_unions_stable_iff u).mp hu
  intro c hc
  have hkept := (List.mem_filter.mp hc).2
  exact (keepsMember_iff c).mp hkept

theorem not_excludes_of_mem_operations {o : Operation} (ho : o ∈ m.stable.operations) :
    ∀ f ∈ o.fields, ¬ m.Excludes f.status (f.types.map (·.name)) := by
  obtain ⟨o, -, rfl⟩ := (mem_operations_stable_iff o).mp ho
  intro f hf
  have hkept := (List.mem_filter.mp hf).2
  exact (keepsOperationField_iff f).mp hkept

theorem stable_of_not_excludes {status : Status} {names : List String}
    (h : ¬ m.Excludes status names) : status = .stable := by
  cases status with
  | stable => rfl
  | future => exact absurd (Or.inl rfl) h

theorem not_isFuture_of_not_excludes {status : Status} {names : List String}
    (h : ¬ m.Excludes status names) : ∀ name ∈ names, ¬ m.IsFuture name :=
  fun name hname hfuture ↦ h (Or.inr ⟨name, hname, hfuture⟩)

end Keeping

theorem stable_of_mem_declarations : ∀ d ∈ m.stable.declarations, d.1 = .stable := by
  have hstable {α : Type} {status : α → Status} {name : α → String} {f : α → α} {as : List α}
      (hf : ∀ a, status (f a) = status a) :
      ∀ d ∈ ((as.filter fun a ↦ !(status a).isFuture).map f).map (fun a ↦ (status a, name a)),
        d.1 = .stable := by
    intro d hd
    obtain ⟨b, hb, rfl⟩ := List.mem_map.mp hd
    obtain ⟨a, -, ha, rfl⟩ := mem_map_stable_iff.mp hb
    exact (hf a).trans ha
  have hscalars : ∀ d ∈ ((m.scalars.filter fun t ↦ !t.status.isFuture).map id).map
      (fun t ↦ (t.status, t.name)), d.1 = .stable := hstable fun _ ↦ rfl
  rw [List.map_id] at hscalars
  simp only [declarations, List.forall_mem_append]
  refine ⟨⟨⟨⟨⟨hscalars, ?_⟩, ?_⟩, ?_⟩, ?_⟩, ?_⟩ <;> exact hstable fun _ ↦ rfl

theorem stable_of_mem_statuses : ∀ status ∈ m.stable.statuses, status = .stable := by
  simp only [statuses, List.forall_mem_append, List.forall_mem_map, List.mem_flatMap]
  refine ⟨⟨⟨⟨⟨m.stable_of_mem_declarations, ?_⟩, ?_⟩, ?_⟩, ?_⟩, ?_⟩
  · intro v hv
    obtain ⟨e', he', hv⟩ := hv
    obtain ⟨e, -, -, rfl⟩ := (mem_enums_stable_iff e').mp he'
    have hkept := (List.mem_filter.mp hv).2
    rwa [Bool.not_eq_true', Status.isFuture_eq_false_iff] at hkept
  · intro f hf
    obtain ⟨r, hr, hf⟩ := hf
    exact stable_of_not_excludes (not_excludes_of_mem_records hr f hf)
  · intro f hf
    obtain ⟨i, hi, hf⟩ := hf
    exact stable_of_not_excludes (not_excludes_of_mem_inputs hi f hf)
  · intro c hc
    obtain ⟨u, hu, hc⟩ := hc
    exact stable_of_not_excludes (not_excludes_of_mem_unions hu c hc)
  · intro f hf
    obtain ⟨o, ho, hf⟩ := hf
    exact stable_of_not_excludes (not_excludes_of_mem_operations ho f hf)

theorem not_isFuture_of_mem_types : ∀ e ∈ m.stable.types, ¬ m.IsFuture e.name := by
  have hname {status : Status} {types : List TypeExpr} {e : TypeExpr} (he : e ∈ types)
      (h : ¬ m.Excludes status (types.map (·.name))) : ¬ m.IsFuture e.name :=
    not_isFuture_of_not_excludes h e.name (List.mem_map.mpr ⟨e, he, rfl⟩)
  intro e he
  simp only [types, List.mem_append, List.mem_flatMap] at he
  rcases he with (⟨f, ⟨r, hr, hf⟩, he⟩ | ⟨f, ⟨i, hi, hf⟩, he⟩) | ⟨f, ⟨o, ho, hf⟩, he⟩
  · exact hname he (not_excludes_of_mem_records hr f hf)
  · exact hname he (not_excludes_of_mem_inputs hi f hf)
  · exact hname he (not_excludes_of_mem_operations ho f hf)

theorem not_isFuture_of_mem_referredNames :
    ∀ name ∈ m.stable.referredNames, ¬ m.IsFuture name := by
  simp only [referredNames, List.forall_mem_append, List.forall_mem_map, List.mem_flatMap]
  refine ⟨⟨m.not_isFuture_of_mem_types, ?_⟩, ?_⟩
  · intro name h
    obtain ⟨r', hr', hname⟩ := h
    obtain ⟨r, -, -, rfl⟩ := (mem_records_stable_iff r').mp hr'
    have hkept := (List.mem_filter.mp hname).2
    rwa [Bool.not_eq_true', ← Bool.not_eq_true, List.contains_iff_mem, mem_futureTypes_iff]
      at hkept
  · intro name h
    simp only [memberTypes, List.mem_map, List.mem_flatMap] at h
    obtain ⟨c, ⟨u, hu, hc⟩, rfl⟩ := h
    exact not_isFuture_of_not_excludes (not_excludes_of_mem_unions hu c hc) _ (by simp)

theorem canonical_of_mem_aliases :
    ∀ e ∈ m.stable.enums, ∀ a ∈ e.aliases, ∃ v ∈ e.values, v.name = a.canonical := by
  intro e' he' a ha
  obtain ⟨e, -, -, rfl⟩ := (mem_enums_stable_iff e').mp he'
  obtain ⟨v, hv, hname⟩ := List.any_eq_true.mp (List.mem_filter.mp ha).2
  exact ⟨v, hv, beq_iff_eq.mp hname⟩

theorem future_of_isFuture {s : Status} (h : (!s.isFuture) = false) : s = .future := by
  rwa [Bool.not_eq_false', Status.isFuture_eq_true_iff] at h

theorem EnumType.thinnedTo_stable (e : EnumType) : e.ThinnedTo e.stable where
  rest := rfl
  values := thinned_filter fun _ _ h ↦ future_of_isFuture h
  aliases := by
    apply thinned_filter
    intro a _ h v hv hname
    have hany : (e.stable.values.any (·.name == a.canonical)) = true :=
      List.any_eq_true.mpr ⟨v, hv, beq_iff_eq.mpr hname⟩
    exact absurd (hany.symm.trans h) (by decide)

theorem thinned_fields (fields : List Field) :
    Thinned (fun f ↦ m.Excludes f.status (f.types.map (·.name))) Eq fields
      (fields.filter (keepsField m.futureTypes)) := by
  apply thinned_filter
  intro f _ h
  by_contra hkeep
  rw [← keepsField_iff, h] at hkeep
  exact Bool.false_ne_true hkeep

theorem RecordType.thinnedTo_stable (r : RecordType) : r.ThinnedTo m (r.stable m.futureTypes) where
  rest := rfl
  implements := by
    apply thinned_filter
    intro name _ h
    rwa [Bool.not_eq_false', List.contains_iff_mem, mem_futureTypes_iff] at h
  fields := m.thinned_fields r.fields

theorem InputType.thinnedTo_stable (i : InputType) : i.ThinnedTo m (i.stable m.futureTypes) where
  rest := rfl
  fields := m.thinned_fields i.fields

theorem UnionType.thinnedTo_stable (u : UnionType) : u.ThinnedTo m (u.stable m.futureTypes) where
  rest := rfl
  members := by
    apply thinned_filter
    intro c _ h
    by_contra hkeep
    rw [← keepsMember_iff, h] at hkeep
    exact Bool.false_ne_true hkeep

theorem Operation.thinnedTo_stable (o : Operation) : o.ThinnedTo m (o.stable m.futureTypes) where
  rest := rfl
  fields := by
    apply thinned_filter
    intro f _ h
    by_contra hkeep
    rw [← keepsOperationField_iff, h] at hkeep
    exact Bool.false_ne_true hkeep

theorem thinnedTo_stable : m.ThinnedTo m.stable where
  metadata := rfl
  scalars := thinned_filter fun _ _ h ↦ future_of_isFuture h
  enums := thinned_map_filter (fun _ _ h ↦ future_of_isFuture h) EnumType.thinnedTo_stable
  interfaces :=
    thinned_map_filter (fun _ _ h ↦ future_of_isFuture h) (RecordType.thinnedTo_stable m)
  objects := thinned_map_filter (fun _ _ h ↦ future_of_isFuture h) (RecordType.thinnedTo_stable m)
  inputs := thinned_map_filter (fun _ _ h ↦ future_of_isFuture h) (InputType.thinnedTo_stable m)
  unions := thinned_map_filter (fun _ _ h ↦ future_of_isFuture h) (UnionType.thinnedTo_stable m)
  operations := thinned_map (Operation.thinnedTo_stable m)
  platformDefaults := rfl

section Fixed

variable {m}

theorem map_filter_eq_self {α : Type} {p : α → Bool} {f : α → α} {as : List α}
    (h : ∀ a ∈ as, p a = true ∧ f a = a) : (as.filter p).map f = as := by
  rw [List.filter_eq_self.mpr fun a ha ↦ (h a ha).1]
  exact (List.map_congr_left fun a ha ↦ (h a ha).2).trans (List.map_id as)

theorem not_isFuture (hs : ∀ status ∈ m.statuses, status = .stable) (name : String) :
    ¬ m.IsFuture name := by
  intro h
  have hmem : Status.future ∈ m.statuses := by
    simp only [statuses, List.mem_append]
    exact Or.inl (Or.inl (Or.inl (Or.inl (Or.inl (List.mem_map.mpr ⟨_, h, rfl⟩)))))
  exact absurd (hs _ hmem) (by decide)

theorem not_excludes (hf : ∀ name, ¬ m.IsFuture name) {status : Status} (h : status = .stable)
    (names : List String) : ¬ m.Excludes status names := by
  rintro (hfuture | ⟨name, -, hname⟩)
  · exact absurd (h.symm.trans hfuture) (by decide)
  · exact hf name hname

theorem EnumType.stable_eq_self {e : EnumType} (hv : ∀ v ∈ e.values, v.status = .stable)
    (ha : ∀ a ∈ e.aliases, ∃ v ∈ e.values, v.name = a.canonical) : e.stable = e := by
  have hvalues : e.values.filter (fun v ↦ !v.status.isFuture) = e.values := by
    apply List.filter_eq_self.mpr
    intro v hmem
    rw [hv v hmem]
    rfl
  have haliases : e.aliases.filter (fun a ↦ e.values.any (·.name == a.canonical)) = e.aliases := by
    apply List.filter_eq_self.mpr
    intro a hmem
    obtain ⟨v, hv, hname⟩ := ha a hmem
    exact List.any_eq_true.mpr ⟨v, hv, beq_iff_eq.mpr hname⟩
  rw [EnumType.stable]
  simp only [hvalues, haliases]

theorem RecordType.stable_eq_self (hf : ∀ name, ¬ m.IsFuture name) {r : RecordType}
    (hr : ∀ f ∈ r.fields, f.status = .stable) : r.stable m.futureTypes = r := by
  have himplements : r.implements.filter (fun name ↦ !m.futureTypes.contains name) =
      r.implements := by
    apply List.filter_eq_self.mpr
    intro name _
    rw [Bool.not_eq_true', ← Bool.not_eq_true, List.contains_iff_mem, mem_futureTypes_iff]
    exact hf name
  have hfields : r.fields.filter (keepsField m.futureTypes) = r.fields :=
    List.filter_eq_self.mpr fun f hmem ↦ (keepsField_iff f).mpr (not_excludes hf (hr f hmem) _)
  rw [RecordType.stable, himplements, hfields]

theorem InputType.stable_eq_self (hf : ∀ name, ¬ m.IsFuture name) {i : InputType}
    (hi : ∀ f ∈ i.fields, f.status = .stable) : i.stable m.futureTypes = i := by
  have hfields : i.fields.filter (keepsField m.futureTypes) = i.fields :=
    List.filter_eq_self.mpr fun f hmem ↦ (keepsField_iff f).mpr (not_excludes hf (hi f hmem) _)
  rw [InputType.stable, hfields]

theorem UnionType.stable_eq_self (hf : ∀ name, ¬ m.IsFuture name) {u : UnionType}
    (hu : ∀ c ∈ u.members, c.status = .stable) : u.stable m.futureTypes = u := by
  have hmembers : u.members.filter (keepsMember m.futureTypes) = u.members :=
    List.filter_eq_self.mpr fun c hmem ↦ (keepsMember_iff c).mpr (not_excludes hf (hu c hmem) _)
  rw [UnionType.stable, hmembers]

theorem Operation.stable_eq_self (hf : ∀ name, ¬ m.IsFuture name) {o : Operation}
    (ho : ∀ f ∈ o.fields, f.status = .stable) : o.stable m.futureTypes = o := by
  have hfields : o.fields.filter (keepsOperationField m.futureTypes) = o.fields :=
    List.filter_eq_self.mpr fun f hmem ↦
      (keepsOperationField_iff f).mpr (not_excludes hf (ho f hmem) _)
  rw [Operation.stable, hfields]

theorem stable_eq_self (hs : ∀ status ∈ m.statuses, status = .stable)
    (ha : ∀ e ∈ m.enums, ∀ a ∈ e.aliases, ∃ v ∈ e.values, v.name = a.canonical) :
    m.stable = m := by
  have hf := not_isFuture hs
  have hpass {s : Status} (h : s = .stable) : (!s.isFuture) = true := by
    rw [h]
    rfl
  simp only [statuses, declarations, records, List.map_append, List.flatMap_append, List.map_map,
    List.forall_mem_append, List.forall_mem_map, List.forall_mem_flatMap] at hs
  obtain ⟨⟨⟨⟨⟨⟨⟨⟨⟨⟨hscalar, henum⟩, hinterface⟩, hobject⟩, hinput⟩, hunion⟩, hvalue⟩,
    hobjectField, hinterfaceField⟩, hinputField⟩, hmember⟩, hoperationField⟩ := hs
  have hscalars : m.scalars.filter (fun t ↦ !t.status.isFuture) = m.scalars :=
    List.filter_eq_self.mpr fun t ht ↦ hpass (hscalar t ht)
  have henums : (m.enums.filter fun t ↦ !t.status.isFuture).map EnumType.stable = m.enums :=
    map_filter_eq_self fun e he ↦
      ⟨hpass (henum e he), EnumType.stable_eq_self (hvalue e he) (ha e he)⟩
  have hinterfaces : (m.interfaces.filter fun t ↦ !t.status.isFuture).map
      (RecordType.stable m.futureTypes) = m.interfaces :=
    map_filter_eq_self fun r hr ↦
      ⟨hpass (hinterface r hr), RecordType.stable_eq_self hf (hinterfaceField r hr)⟩
  have hobjects : (m.objects.filter fun t ↦ !t.status.isFuture).map
      (RecordType.stable m.futureTypes) = m.objects :=
    map_filter_eq_self fun r hr ↦
      ⟨hpass (hobject r hr), RecordType.stable_eq_self hf (hobjectField r hr)⟩
  have hinputs : (m.inputs.filter fun t ↦ !t.status.isFuture).map
      (InputType.stable m.futureTypes) = m.inputs :=
    map_filter_eq_self fun i hi ↦
      ⟨hpass (hinput i hi), InputType.stable_eq_self hf (hinputField i hi)⟩
  have hunions : (m.unions.filter fun t ↦ !t.status.isFuture).map
      (UnionType.stable m.futureTypes) = m.unions :=
    map_filter_eq_self fun u hu ↦
      ⟨hpass (hunion u hu), UnionType.stable_eq_self hf (hmember u hu)⟩
  have hoperations : m.operations.map (Operation.stable m.futureTypes) = m.operations :=
    (List.map_congr_left fun o ho ↦ Operation.stable_eq_self hf (hoperationField o ho)).trans
      (List.map_id _)
  rw [stable]
  simp only [hscalars, henums, hinterfaces, hobjects, hinputs, hunions, hoperations]

end Fixed

theorem stablePart_stable : m.StablePart m.stable ∧ m.stable.stable = m.stable := by
  have hs := m.stable_of_mem_statuses
  have ha := m.canonical_of_mem_aliases
  exact ⟨⟨hs, m.not_isFuture_of_mem_referredNames, ha, m.thinnedTo_stable⟩, stable_eq_self hs ha⟩

end SchemaBindings.Model
