import Mathlib.Data.Finset.Card
import SchemaBindings.Source.NameTable

namespace SchemaBindings.NameTable

/-- Each name stands in one position and is found by the number of it. -/
structure Inverse (t : NameTable) : Prop where
  nodup : t.names.Nodup
  lookup_eq_some_iff : ∀ name number, t.lookup name = some number ↔
    ∃ i, t.names[i]? = some name ∧ numberAt i = number

section Step

variable {t : NameTable} {name : String}

theorem Inverse.lookup_eq_none_iff (h : t.Inverse) : t.lookup name = none ↔ name ∉ t.names := by
  rw [Option.eq_none_iff_forall_ne_some, List.mem_iff_getElem?, not_exists]
  constructor
  · intro hnone i hi
    exact hnone _ ((h.lookup_eq_some_iff _ _).mpr ⟨i, hi, rfl⟩)
  · intro hnew number hnumber
    obtain ⟨i, hi, -⟩ := (h.lookup_eq_some_iff _ _).mp hnumber
    exact hnew i hi

theorem lookup_add (t : NameTable) (name name' : String) : (t.add name).lookup name' =
    if name' = name then some (numberAt t.names.length) else t.lookup name' :=
  KeyedList.lookup_put _ _ _ _

theorem getElem?_names_add (t : NameTable) (name name' : String) (i : Nat) :
    (t.add name).names[i]? = some name' ↔
      t.names[i]? = some name' ∨ i = t.names.length ∧ name = name' := by
  rw [add, List.getElem?_append]
  split
  next hi => simp [Nat.ne_of_lt hi]
  next hi =>
    rw [List.getElem?_eq_none (Nat.le_of_not_lt hi), List.getElem?_singleton]
    simp
    omega

theorem Inverse.add (h : t.Inverse) (hnew : name ∉ t.names) : (t.add name).Inverse := by
  refine ⟨?_, fun name' number ↦ ?_⟩
  · rw [NameTable.add, ← List.concat_eq_append]
    exact h.nodup.concat hnew
  · simp only [lookup_add, getElem?_names_add]
    split
    next he =>
      subst he
      have hold (i : Nat) : t.names[i]? ≠ some name' := fun hi ↦ hnew (List.mem_of_getElem? hi)
      simp [hold]
    next hne =>
      simpa [Ne.symm hne] using h.lookup_eq_some_iff name' number

theorem intern_of_mem (h : t.Inverse) (hname : name ∈ t.names) : (t.intern name).2 = t := by
  rw [intern]
  split
  · rfl
  next hnone => exact absurd hname (h.lookup_eq_none_iff.mp hnone)

theorem intern_of_not_mem (h : t.Inverse) (hname : name ∉ t.names) :
    t.intern name = (numberAt t.names.length, t.add name) := by
  rw [intern, h.lookup_eq_none_iff.mpr hname]

theorem Inverse.intern (h : t.Inverse) (name : String) : (t.intern name).2.Inverse := by
  by_cases hname : name ∈ t.names
  · rwa [intern_of_mem h hname]
  · rw [intern_of_not_mem h hname]
    exact h.add hname

theorem prefix_names_intern (h : t.Inverse) (name : String) :
    t.names <+: (t.intern name).2.names := by
  by_cases hname : name ∈ t.names
  · rw [intern_of_mem h hname]
  · rw [intern_of_not_mem h hname]
    exact List.prefix_append _ _

theorem mem_names_intern (h : t.Inverse) {name' : String} :
    name' ∈ (t.intern name).2.names ↔ name' ∈ t.names ∨ name' = name := by
  by_cases hname : name ∈ t.names
  · rw [intern_of_mem h hname]
    exact (or_iff_left_of_imp fun he ↦ he ▸ hname).symm
  · rw [intern_of_not_mem h hname]
    exact List.mem_append.trans (or_congr_right List.mem_singleton)

theorem lookup_intern (t : NameTable) (name : String) :
    (t.intern name).2.lookup name = some (t.intern name).1 := by
  rw [intern]
  split
  next number hnumber => exact hnumber
  next => rw [lookup_add, if_pos rfl]

end Step

section Bounded

variable {t : NameTable} (h : t.Inverse) (hsize : t.names.length ≤ UInt32.size) {name : String}
  {number : Nat}

include h hsize

theorem lookup_eq_some_iff : t.lookup name = some number ↔ t.names[number]? = some name := by
  have hposition {i : Nat} (hi : t.names[i]? = some name) : numberAt i = i := by
    obtain ⟨hlt, -⟩ := List.getElem?_eq_some_iff.mp hi
    exact Nat.mod_eq_of_lt (hlt.trans_le hsize)
  rw [h.lookup_eq_some_iff]
  constructor
  · intro hi
    obtain ⟨i, hi, rfl⟩ := hi
    rwa [hposition hi]
  · intro hi
    exact ⟨number, hi, hposition hi⟩

theorem exists_lookup_iff : (∃ name, t.lookup name = some number) ↔ number < t.names.length := by
  simp only [lookup_eq_some_iff h hsize, ← Option.isSome_iff_exists]
  simp

end Bounded

/-- What a table can be asked. -/
inductive Call where
  | intern (name : String)
  | lookup (name : String)
  | get (number : Nat)
  deriving Repr, DecidableEq

inductive Answer where
  | number (number : Nat)
  | found (number : Option Nat)
  | name (name : String)
  deriving Repr, DecidableEq

def answer (t : NameTable) : Call → Answer × NameTable
  | .intern name => (.number (t.intern name).1, (t.intern name).2)
  | .lookup name => (.found (t.lookup name), t)
  | .get number => (.name (t.get number), t)

def after (calls : List Call) : NameTable :=
  calls.foldl (fun t call ↦ (t.answer call).2) initial

def answerAfter (calls : List Call) (call : Call) : Answer :=
  ((after calls).answer call).1

def interned (calls : List Call) : List String :=
  calls.filterMap fun
    | .intern name => some name
    | .lookup _ | .get _ => none

theorem mem_interned {calls : List Call} {name : String} :
    name ∈ interned calls ↔ .intern name ∈ calls := by
  rw [interned, List.mem_filterMap]
  constructor
  · rintro ⟨call, hcall, he⟩
    cases call <;> simp_all
  · intro h
    exact ⟨_, h, rfl⟩

theorem after_concat (calls : List Call) (call : Call) :
    after (calls ++ [call]) = ((after calls).answer call).2 := by
  rw [after, List.foldl_append]
  rfl

theorem inverse_initial : initial.Inverse := by
  have hempty : (⟨[], []⟩ : NameTable).Inverse := ⟨List.nodup_nil, by simp [lookup]⟩
  exact List.foldlRecOn registered _ hempty fun t ht name _ ↦ ht.intern name

theorem names_initial : initial.names = registered := by
  decide +kernel

theorem inverse_answer {t : NameTable} (h : t.Inverse) (call : Call) :
    (t.answer call).2.Inverse := by
  cases call with
  | intern name => exact h.intern name
  | lookup name => exact h
  | get number => exact h

theorem inverse_after (calls : List Call) : (after calls).Inverse :=
  List.foldlRecOn calls _ inverse_initial fun _ ht call _ ↦ inverse_answer ht call

theorem prefix_names_answer {t : NameTable} (h : t.Inverse) (call : Call) :
    t.names <+: (t.answer call).2.names := by
  cases call with
  | intern name => exact prefix_names_intern h name
  | lookup name => exact List.prefix_rfl
  | get number => exact List.prefix_rfl

theorem prefix_names_after {p q : List Call} (h : p <+: q) :
    (after p).names <+: (after q).names := by
  obtain ⟨more, rfl⟩ := h
  induction more using List.reverseRecOn with
  | nil => rw [List.append_nil]
  | append_singleton more call ih =>
    rw [← List.append_assoc, after_concat]
    exact ih.trans (prefix_names_answer (inverse_after _) call)

theorem mem_names_after {calls : List Call} {name : String} :
    name ∈ (after calls).names ↔ name ∈ registered ++ interned calls := by
  rw [List.mem_append, mem_interned]
  induction calls using List.reverseRecOn with
  | nil => simp [after, names_initial]
  | append_singleton calls call ih =>
    rw [after_concat, List.mem_append, List.mem_singleton]
    cases call with
    | intern name' =>
      rw [answer, mem_names_intern (inverse_after calls), ih, or_assoc, Call.intern.injEq]
    | lookup name' => simpa [answer] using ih
    | get number => simpa [answer] using ih

theorem length_names_after (calls : List Call) :
    (after calls).names.length = (registered ++ interned calls).toFinset.card := by
  rw [← List.toFinset_card_of_nodup (inverse_after calls).nodup]
  refine congrArg Finset.card (Finset.ext fun name ↦ ?_)
  rw [List.mem_toFinset, List.mem_toFinset, mem_names_after]

theorem exists_names_after (calls : List Call) :
    ∃ others, (after calls).names = builtinScalars ++ others := by
  obtain ⟨more, hmore⟩ := prefix_names_after (List.nil_prefix (l := calls))
  refine ⟨["Query", "Mutation", "Subscription", "deprecated", "reason"] ++ more, ?_⟩
  rw [← hmore, ← List.append_assoc]
  exact congrArg (· ++ more) names_initial

theorem isBuiltin_iff {calls : List Call} {number : Nat}
    (h : number < (after calls).names.length) :
    isBuiltin number = true ↔ (after calls).get number ∈ builtinScalars := by
  obtain ⟨others, hnames⟩ := exists_names_after calls
  have hnodup := (inverse_after calls).nodup
  rw [get, List.getD_eq_getElem?_getD, List.getElem?_eq_getElem h, Option.getD_some, isBuiltin,
    decide_eq_true_iff]
  simp only [hnames] at hnodup ⊢
  constructor
  · intro hlt
    rw [List.getElem_append_left hlt]
    exact List.getElem_mem hlt
  · intro hmem
    by_contra hlt
    rw [List.getElem_append_right (Nat.le_of_not_lt hlt)] at hmem
    exact (List.nodup_append.mp hnodup).2.2 _ hmem _ (List.getElem_mem _) rfl

theorem getElem?_names_of_lookup {p q : List Call} {name : String} {number : Nat} (h : p <+: q)
    (hsize : (after q).names.length ≤ UInt32.size) (hnumber : (after p).lookup name = some number) :
    (after q).names[number]? = some name := by
  have hnames := prefix_names_after h
  rw [lookup_eq_some_iff (inverse_after p) (hnames.length_le.trans hsize)] at hnumber
  obtain ⟨more, hmore⟩ := hnames
  obtain ⟨hlt, -⟩ := List.getElem?_eq_some_iff.mp hnumber
  rwa [← hmore, List.getElem?_append_left hlt]

theorem lookup_after_intern (p : List Call) (name : String) :
    (after (p ++ [.intern name])).lookup name = some ((after p).intern name).1 := by
  rw [after_concat]
  exact lookup_intern (after p) name

theorem lookup_eq_some_iff_intern {t : NameTable} (h : t.Inverse) {name : String} {number : Nat} :
    t.lookup name = some number ↔ name ∈ t.names ∧ (t.intern name).1 = number := by
  rw [intern]
  cases hfound : t.lookup name with
  | none => exact iff_of_false nofun fun hname ↦ h.lookup_eq_none_iff.mp hfound hname.1
  | some found =>
    have hname : name ∈ t.names := by
      by_contra hnew
      rw [h.lookup_eq_none_iff.mpr hnew] at hfound
      cases hfound
    rw [Option.some_inj]
    exact (and_iff_right hname).symm

/-- While some calls are answered, names and numbers determine each other. -/
structure IsNumbering (calls : List Call) : Prop where
  /-- Names are given one number exactly if they are equal. -/
  intern_eq_iff : ∀ p p' name name',
    p ++ [.intern name] <+: calls → p' ++ [.intern name'] <+: calls →
      (answerAfter p (.intern name) = answerAfter p' (.intern name') ↔ name = name')
  /-- A number that has been given stands for its name from then on. -/
  get_eq : ∀ p q name number, p ++ [.intern name] <+: q → q <+: calls →
    answerAfter p (.intern name) = .number number → answerAfter q (.get number) = .name name
  /-- The names that have come up are found, by the numbers that they are given. -/
  lookup_eq_iff : ∀ q name number, q <+: calls →
    (answerAfter q (.lookup name) = .found (some number) ↔
      (name ∈ registered ∨ .intern name ∈ q) ∧ answerAfter q (.intern name) = .number number)
  /-- A name keeps the number that it has been given. -/
  intern_again : ∀ p q name, p ++ [.intern name] <+: q → q <+: calls →
    answerAfter q (.intern name) = answerAfter p (.intern name)
  after_lookup : ∀ q name, after (q ++ [.lookup name]) = after q
  after_get : ∀ q number, after (q ++ [.get number]) = after q
  /-- The numbers of the names that have come up are all those below the number of names. -/
  lt_length_iff : ∀ q number, q <+: calls → (number < (after q).names.length ↔
    ∃ name, (name ∈ registered ∨ .intern name ∈ q) ∧
      answerAfter q (.intern name) = .number number)
  isBuiltin_iff : ∀ q number, q <+: calls → number < (after q).names.length →
    (isBuiltin number = true ↔ ∃ name ∈ builtinScalars, answerAfter q (.get number) = .name name)

/-- If there are numbers for all names that come up, names and numbers determine each other. -/
theorem isNumbering {calls : List Call}
    (h : (registered ++ interned calls).toFinset.card ≤ UInt32.size) : IsNumbering calls := by
  rw [← length_names_after] at h
  have hsize {q : List Call} (hq : q <+: calls) : (after q).names.length ≤ UInt32.size :=
    (prefix_names_after hq).length_le.trans h
  have hgiven {p q : List Call} {name : String} (hp : p ++ [.intern name] <+: q)
      (hq : q <+: calls) : (after q).names[((after p).intern name).1]? = some name :=
    getElem?_names_of_lookup hp (hsize hq) (lookup_after_intern p name)
  have hfound (q : List Call) (name : String) (number : Nat) :
      (after q).lookup name = some number ↔
        (name ∈ registered ∨ .intern name ∈ q) ∧ ((after q).intern name).1 = number := by
    rw [lookup_eq_some_iff_intern (inverse_after q), mem_names_after, List.mem_append, mem_interned]
  refine ⟨?_, ?_, ?_, ?_, fun q name ↦ after_concat q _, fun q number ↦ after_concat q _, ?_, ?_⟩
  · intro p p' name name' hp hp'
    have hat := hgiven hp List.prefix_rfl
    have hat' := hgiven hp' List.prefix_rfl
    simp only [answerAfter, answer, Answer.number.injEq]
    constructor
    · intro he
      rw [he, hat', Option.some_inj] at hat
      exact hat.symm
    · rintro rfl
      obtain ⟨hlt, -⟩ := List.getElem?_eq_some_iff.mp hat
      exact (List.getElem?_inj hlt (inverse_after calls).nodup).mp (hat.trans hat'.symm)
  · intro p q name number hp hq he
    obtain rfl := Answer.number.inj he
    simp only [answerAfter, answer, get, List.getD_eq_getElem?_getD, hgiven hp hq, Option.getD_some]
  · intro q name number hq
    simp only [answerAfter, answer, Answer.found.injEq, Answer.number.injEq]
    exact hfound q name number
  · intro p q name hp hq
    have hlookup := (lookup_eq_some_iff (inverse_after q) (hsize hq)).mpr (hgiven hp hq)
    simp only [answerAfter, answer, Answer.number.injEq]
    exact ((hfound q name _).mp hlookup).2
  · intro q number hq
    simp only [answerAfter, answer, Answer.number.injEq]
    rw [← exists_lookup_iff (inverse_after q) (hsize hq)]
    exact exists_congr fun name ↦ hfound q name number
  · intro q number hq hlt
    rw [isBuiltin_iff hlt]
    simp [answerAfter, answer]

def productCalls : List Call :=
  [.intern "Product", .lookup "Purchase", .intern "Purchase", .get 3, .intern "Product"]

theorem isNumbering_productCalls :
    (registered ++ interned productCalls).toFinset.card ≤ UInt32.size ∧ IsNumbering productCalls ∧
      answerAfter [.intern "Product"] (.lookup "Purchase") = .found none ∧
      answerAfter [.intern "Product", .lookup "Purchase"] (.intern "Purchase") = .number 11 ∧
      answerAfter productCalls (.get 11) = .name "Purchase" := by
  have hcard : (registered ++ interned productCalls).toFinset.card ≤ UInt32.size :=
    (List.toFinset_card_le _).trans (by decide)
  have hnumbering := isNumbering hcard
  have hnumber : answerAfter [.intern "Product", .lookup "Purchase"] (.intern "Purchase") =
      .number 11 := by decide +kernel
  refine ⟨hcard, hnumbering, by decide +kernel, hnumber, ?_⟩
  exact hnumbering.get_eq _ _ _ _ ⟨[.get 3, .intern "Product"], rfl⟩ List.prefix_rfl hnumber

end SchemaBindings.NameTable
