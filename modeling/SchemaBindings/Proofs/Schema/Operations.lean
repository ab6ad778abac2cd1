import SchemaBindings.Proofs.Schema.Merging

namespace SchemaBindings.Merge

open Sdl

def IsObjectName (types : List SchemaType) (name : String) : Prop :=
  (findType? types name).map SchemaType.kind = some .object

namespace RootScan

/-- The operations that have a type so far. -/
def keys (s : RootScan) : List OperationKind :=
  s.roots.map (·.1)

theorem isSome_lookup_iff (roots : List (OperationKind × String)) (o : OperationKind) :
    (roots.lookup o).isSome ↔ o ∈ roots.map (·.1) := by
  induction roots with
  | nil => simp
  | cons r roots ih =>
    rw [List.lookup_cons, List.map_cons, List.mem_cons]
    by_cases h : o = r.1
    · simp [h]
    · simp [beq_false_of_ne h, h, ih]

variable (types : List SchemaType) (file : Nat)

theorem keys_addOperation (s : RootScan) (o : OperationType) :
    (addOperation types file s o).keys = o.operation :: s.keys := by
  unfold addOperation keys
  simp only [report]
  split <;> split <;> rfl

theorem schema_addOperation (s : RootScan) (o : OperationType) :
    (addOperation types file s o).schema = s.schema := by
  unfold addOperation
  simp only [report]
  split <;> split <;> rfl

theorem issues_addOperation_eq_nil_iff (s : RootScan) (o : OperationType) :
    (addOperation types file s o).issues = [] ↔
      s.issues = [] ∧ o.operation ∉ s.keys ∧ IsObjectName types o.typeName.text := by
  have hkeys := isSome_lookup_iff s.roots o.operation
  unfold addOperation IsObjectName
  simp only [report]
  by_cases hk : o.operation ∈ s.keys
  · rw [if_pos (hkeys.mpr hk)]
    split <;> simp [hk]
  · rw [if_neg (mt hkeys.mp hk)]
    split
    · rename_i h
      simp [hk, h]
    · rename_i kind hne h
      rw [h]
      simp only [List.append_eq_nil_iff, List.cons_ne_self, and_false, false_iff, not_and,
        Option.some.injEq]
      exact fun _ _ he ↦ hne he
    · rename_i h
      simp [h]

theorem foldl_addOperation (ops : List OperationType) (s : RootScan) :
    (ops.foldl (addOperation types file) s).keys = (ops.map (·.operation)).reverse ++ s.keys ∧
      (ops.foldl (addOperation types file) s).schema = s.schema := by
  induction ops generalizing s with
  | nil => simp
  | cons o ops ih =>
    obtain ⟨hkeys, hschema⟩ := ih (addOperation types file s o)
    rw [List.foldl_cons, hkeys, hschema, keys_addOperation, schema_addOperation]
    simp

theorem issues_foldl_addOperation_eq_nil_iff (ops : List OperationType) (s : RootScan) :
    (ops.foldl (addOperation types file) s).issues = [] ↔
      s.issues = [] ∧ (∀ o ∈ ops, o.operation ∉ s.keys) ∧ (ops.map (·.operation)).Nodup ∧
        ∀ o ∈ ops, IsObjectName types o.typeName.text := by
  induction ops generalizing s with
  | nil => simp
  | cons o ops ih =>
    rw [List.foldl_cons, ih, issues_addOperation_eq_nil_iff, keys_addOperation]
    simp only [List.mem_cons, not_or, forall_eq_or_imp, List.map_cons, List.nodup_cons,
      List.mem_map, not_exists, not_and]
    constructor
    · intro h
      obtain ⟨⟨hi, hk, ho⟩, hne, hnd, hos⟩ := h
      exact ⟨hi, ⟨hk, fun p hp ↦ (hne p hp).2⟩, ⟨fun p hp ↦ (hne p hp).1, hnd⟩, ho, hos⟩
    · intro h
      obtain ⟨hi, ⟨hk, hks⟩, ⟨hne, hnd⟩, ho, hos⟩ := h
      exact ⟨⟨hi, hk, ho⟩, fun p hp ↦ ⟨hne p hp, hks p hp⟩, hnd, hos⟩

def noted (s : RootScan) (part : SchemaPart) : RootScan :=
  if part.isExtension then s else s.noteSchema part

def met (s : RootScan) : Nat :=
  if s.schema.isSome then 1 else 0

theorem keys_noted (s : RootScan) (part : SchemaPart) : (s.noted part).keys = s.keys := by
  unfold noted noteSchema keys
  split
  · rfl
  · simp only [report]
    split <;> rfl

theorem issues_noted_eq_nil_iff (s : RootScan) (part : SchemaPart) :
    (s.noted part).issues = [] ↔ s.issues = [] ∧ (part.isExtension ∨ s.met = 0) := by
  unfold noted noteSchema met
  simp only [report]
  split
  · simp_all
  · cases hs : s.schema <;> simp_all

theorem met_noted (s : RootScan) (part : SchemaPart) :
    (s.noted part).met = if part.isExtension then s.met else 1 := by
  unfold noted noteSchema met
  simp only [report]
  split
  · rfl
  · cases s.schema <;> rfl

theorem addPart_eq (s : RootScan) (part : SchemaPart) :
    addPart types s part =
      part.definition.operations.foldl (addOperation types part.file) (s.noted part) := rfl

theorem issues_foldl_addPart_eq_nil_iff (parts : List SchemaPart) (s : RootScan) :
    (parts.foldl (addPart types) s).issues = [] ↔
      s.issues = [] ∧
        (s.met + (parts.filter (!·.isExtension)).length ≤ 1) ∧
        (∀ o ∈ operations parts, o.operation ∉ s.keys) ∧
        ((operations parts).map (·.operation)).Nodup ∧
        ∀ o ∈ operations parts, IsObjectName types o.typeName.text := by
  induction parts generalizing s with
  | nil =>
    have hmet : s.met ≤ 1 := by unfold met; split <;> omega
    simp [operations, hmet]
  | cons part parts ih =>
    obtain ⟨hkeys, hschema⟩ :=
      foldl_addOperation types part.file part.definition.operations (s.noted part)
    have hmet : (addPart types s part).met = (s.noted part).met := by
      rw [addPart_eq, met, met, hschema]
    have hops : operations (part :: parts) = part.definition.operations ++ operations parts := rfl
    have hcount : s.met + ((part :: parts).filter (!·.isExtension)).length ≤ 1 ↔
        (part.isExtension ∨ s.met = 0) ∧
          (if part.isExtension then s.met else 1) + (parts.filter (!·.isExtension)).length ≤ 1 := by
      cases he : part.isExtension with
      | true =>
        rw [List.filter_cons_of_neg (by simp [he])]
        simp only [true_or, true_and, if_true]
      | false =>
        rw [List.filter_cons_of_pos (by simp [he]), List.length_cons]
        simp only [Bool.false_eq_true, false_or, if_false]
        omega
    rw [List.foldl_cons, ih, addPart_eq, issues_foldl_addOperation_eq_nil_iff, hkeys,
      issues_noted_eq_nil_iff, keys_noted, ← addPart_eq, hmet, met_noted, hops, hcount,
      List.map_append, List.nodup_append]
    simp only [List.mem_append, List.mem_reverse, List.mem_map, not_or, not_exists, not_and]
    constructor
    · intro h
      obtain ⟨⟨⟨hi, hfirst⟩, hfresh, hnd, hobj⟩, hmet, hfresh', hnd', hobj'⟩ := h
      refine ⟨hi, ⟨hfirst, hmet⟩, ?_, ⟨hnd, hnd', ?_⟩, ?_⟩
      · intro o h
        rcases h with ho | ho
        · exact hfresh o ho
        · exact (hfresh' o ho).2
      · intro _ h _ h'
        obtain ⟨o, ho, rfl⟩ := h
        obtain ⟨o', ho', rfl⟩ := h'
        exact (hfresh' o' ho').1 o ho
      · intro o h
        rcases h with ho | ho
        · exact hobj o ho
        · exact hobj' o ho
    · intro h
      obtain ⟨hi, ⟨hfirst, hmet⟩, hfresh, ⟨hnd, hnd', hne⟩, hobj⟩ := h
      refine ⟨⟨⟨hi, hfirst⟩, fun o ho ↦ hfresh o (Or.inl ho), hnd, fun o ho ↦ hobj o (Or.inl ho)⟩,
        hmet, fun o ho ↦ ⟨?_, hfresh o (Or.inr ho)⟩, hnd', fun o ho ↦ hobj o (Or.inr ho)⟩
      exact fun o' ho' ↦ hne _ ⟨o', ho', rfl⟩ _ ⟨o, ho, rfl⟩

end RootScan

/-- Resolving the operations reports nothing exactly if the parts of the schema definition agree. -/
theorem issues_roots_eq_nil_iff (types : List SchemaType) (parts : List SchemaPart) :
    (roots types parts).issues = [] ↔
      (parts.filter (!·.isExtension)).length ≤ 1 ∧
        ((operations parts).map (·.operation)).Nodup ∧
        ∀ o ∈ operations parts, IsObjectName types o.typeName.text := by
  unfold roots
  split
  · rename_i h
    simp [List.isEmpty_iff.mp h, operations]
  · rw [RootScan.issues_foldl_addPart_eq_nil_iff]
    simp [RootScan.keys, RootScan.met]

namespace RootScan

theorem roots_addOperation (types : List SchemaType) (file : Nat) (s : RootScan)
    (o : OperationType) :
    (addOperation types file s o).roots = (o.operation, o.typeName.text) :: s.roots := by
  unfold addOperation
  simp only [report]
  split <;> split <;> rfl

/-- What the parts of a schema definition give the operations, the last first. -/
def given (parts : List SchemaPart) : List (OperationKind × String) :=
  ((operations parts).map fun o ↦ (o.operation, o.typeName.text)).reverse

theorem roots_foldl_addOperation (types : List SchemaType) (file : Nat) (ops : List OperationType)
    (s : RootScan) : (ops.foldl (addOperation types file) s).roots =
      (ops.map fun o ↦ (o.operation, o.typeName.text)).reverse ++ s.roots := by
  induction ops generalizing s with
  | nil => rfl
  | cons o ops ih => rw [List.foldl_cons, ih, roots_addOperation]; simp

theorem roots_noted (s : RootScan) (part : SchemaPart) : (s.noted part).roots = s.roots := by
  unfold noted noteSchema
  simp only [report]
  repeat' split
  all_goals rfl

theorem roots_foldl_addPart (types : List SchemaType) (parts : List SchemaPart) (s : RootScan) :
    (parts.foldl (addPart types) s).roots = given parts ++ s.roots := by
  induction parts generalizing s with
  | nil => rfl
  | cons part parts ih =>
    rw [List.foldl_cons, ih, addPart_eq, roots_foldl_addOperation, roots_noted]
    simp [given, operations]

end RootScan

theorem roots_roots (types : List SchemaType) (parts : List SchemaPart) :
    (roots types parts).roots = if parts.isEmpty then conventionalRoots types else
      OperationKind.all.filterMap fun o ↦
        ((RootScan.given parts).lookup o).map fun name ↦ (o, name) := by
  unfold roots
  split
  · rfl
  · simp only [RootScan.roots_foldl_addPart, List.append_nil]

theorem isObjectName_of_mem_roots {types : List SchemaType} {parts : List SchemaPart}
    (hobj : ∀ o ∈ operations parts, IsObjectName types o.typeName.text)
    {p : OperationKind × String} (h : p ∈ (roots types parts).roots) : IsObjectName types p.2 := by
  rw [roots_roots] at h
  split at h
  · obtain ⟨o, -, ho⟩ := List.mem_filterMap.mp h
    split at ho
    next hkind =>
      cases ho
      exact hkind
    next => cases ho
  · obtain ⟨o, -, ho⟩ := List.mem_filterMap.mp h
    obtain ⟨name, hname, rfl⟩ := Option.map_eq_some_iff.mp ho
    obtain ⟨before, after, he, -⟩ := List.lookup_eq_some_iff.mp hname
    have hmem : (o, name) ∈ RootScan.given parts := by simp [he]
    obtain ⟨o', ho', he⟩ := List.mem_map.mp (List.mem_reverse.mp hmem)
    cases he
    exact hobj o' ho'

end SchemaBindings.Merge
