import SchemaBindings.Proofs.Schema.Loading

namespace SchemaBindings.Merge

open Sdl

/-- The definitions of the second list are those of the first, with the declared types in the same
order and the extensions of each type in the same order. -/
structure Rearranged (definitions definitions' : List Placed) : Prop where
  perm : definitions.Perm definitions'
  declarations_eq : declarations definitions = declarations definitions'
  extensions_eq : ∀ name,
    (extensions definitions).filter (·.definition.name.text == name) =
      (extensions definitions').filter (·.definition.name.text == name)

theorem lookup_eq_of_perm {α β : Type} [BEq α] [LawfulBEq α] {pairs pairs' : List (α × β)}
    (h : pairs.Perm pairs') (hn : (pairs.map (·.1)).Nodup) (a : α) :
    pairs.lookup a = pairs'.lookup a := by
  induction h with
  | nil => rfl
  | cons p _ ih =>
    rw [List.lookup_cons, List.lookup_cons, ih (List.nodup_cons.mp hn).2]
  | swap p q rest =>
    have hne : q.1 ≠ p.1 := by
      intro heq
      exact (List.nodup_cons.mp hn).1 (by simp [heq])
    rw [List.lookup_cons, List.lookup_cons, List.lookup_cons, List.lookup_cons]
    by_cases hp : a = p.1
    · rw [hp, beq_self_eq_true, beq_false_of_ne hne.symm]
    · rw [beq_false_of_ne hp]
  | trans hfirst _ ih ih' =>
    exact (ih hn).trans (ih' ((hfirst.map _).nodup_iff.mp hn))

namespace Rearranged

variable {definitions definitions' : List Placed} (h : Rearranged definitions definitions')

include h

theorem symm : Rearranged definitions' definitions :=
  ⟨h.perm.symm, h.declarations_eq.symm, fun name ↦ (h.extensions_eq name).symm⟩

theorem merged_eq : merged definitions = merged definitions' := by
  rw [merged, merged, h.declarations_eq]
  refine List.map_congr_left fun part _ ↦ ?_
  rw [h.extensions_eq]

theorem schemaParts_perm : (schemaParts definitions).Perm (schemaParts definitions') :=
  h.perm.filterMap _

theorem operations_perm :
    (operations (schemaParts definitions)).Perm (operations (schemaParts definitions')) :=
  h.schemaParts_perm.flatMap_right _

theorem wellFormed (hwf : WellFormed definitions) : WellFormed definitions' where
  names_nodup := h.declarations_eq ▸ hwf.names_nodup
  names_new := h.declarations_eq ▸ hwf.names_new
  extended := by
    intro e he
    rw [← h.declarations_eq]
    exact hwf.extended e ((h.perm.filterMap _).mem_iff.mpr he)
  one_schema := (h.schemaParts_perm.filter _).length_eq ▸ hwf.one_schema
  operations_nodup := (h.operations_perm.map _).nodup_iff.mp hwf.operations_nodup
  operations_objects := by
    intro o ho
    rw [← h.declarations_eq]
    exact hwf.operations_objects o (h.operations_perm.mem_iff.mpr ho)
  types := h.merged_eq ▸ hwf.types
  acyclic := h.merged_eq ▸ hwf.acyclic

theorem roots_eq (hwf : WellFormed definitions) :
    (roots (merged definitions) (schemaParts definitions)).roots =
      (roots (merged definitions') (schemaParts definitions')).roots := by
  have hgiven : (RootScan.given (schemaParts definitions)).Perm
      (RootScan.given (schemaParts definitions')) :=
    (List.reverse_perm _).trans ((h.operations_perm.map _).trans (List.reverse_perm _).symm)
  have hnodup : ((RootScan.given (schemaParts definitions)).map (·.1)).Nodup := by
    rw [RootScan.given, List.map_reverse, List.nodup_reverse, List.map_map]
    exact hwf.operations_nodup
  have hempty : (schemaParts definitions).isEmpty = (schemaParts definitions').isEmpty := by
    rw [Bool.eq_iff_iff, List.isEmpty_iff, List.isEmpty_iff]
    exact ⟨fun hnil ↦ (hnil ▸ h.schemaParts_perm).nil_eq.symm,
      fun hnil ↦ (hnil ▸ h.schemaParts_perm).eq_nil⟩
  rw [roots_roots, roots_roots, h.merged_eq, hempty]
  congr 2
  funext o
  rw [lookup_eq_of_perm hgiven hnodup]

end Rearranged

/-- Definitions in another order make up no schema if they make up none, and else the same types,
each with the same extensions, and the same types that offer the operations. -/
theorem merge_of_rearranged {definitions definitions' : List Placed}
    (h : Rearranged definitions definitions') (sources : Sources) :
    ((∃ e, Load.merge sources definitions = .error e) ∧
        ∃ e, Load.merge sources definitions' = .error e) ∨
      ∃ s s', Load.merge sources definitions = .ok s ∧ Load.merge sources definitions' = .ok s' ∧
        s.types = s'.types ∧ s.roots = s'.roots := by
  cases hmerge : Load.merge sources definitions with
  | ok s =>
    obtain ⟨hwf, rfl⟩ := (merge_eq_ok_iff _ _).mp hmerge
    have hmerge' := (merge_eq_ok_iff sources _).mpr ⟨h.wellFormed hwf, rfl⟩
    exact .inr ⟨_, _, rfl, hmerge', h.merged_eq, h.roots_eq hwf⟩
  | error e =>
    cases hmerge' : Load.merge sources definitions' with
    | error e' => exact .inl ⟨⟨e, rfl⟩, e', rfl⟩
    | ok s =>
      have hwf := h.symm.wellFormed ((merge_eq_ok_iff _ _).mp hmerge').1
      rw [(merge_eq_ok_iff _ _).mpr ⟨hwf, rfl⟩] at hmerge
      cases hmerge

def isTypeExtension : Placed → Bool
  | (_, .typeExtension _) => true
  | _ => false

/-- Definitions with all extensions of types before everything else. -/
def extensionsFirst (definitions : List Placed) : List Placed :=
  definitions.filter isTypeExtension ++ definitions.filter (!isTypeExtension ·)

theorem filterMap_extensionsFirst {β : Type} {f : Placed → Option β}
    (h : (∀ d, isTypeExtension d = true → f d = none) ∨ ∀ d, isTypeExtension d = false → f d = none)
    (definitions : List Placed) :
    (extensionsFirst definitions).filterMap f = definitions.filterMap f := by
  have hnone {p : Placed → Bool} (hp : ∀ d, p d = true → f d = none) :
      (definitions.filter p).filterMap f = [] :=
    List.filterMap_eq_nil_iff.mpr fun d hd ↦ hp d (List.mem_filter.mp hd).2
  have hall {p : Placed → Bool} (hp : ∀ d, p d = false → f d = none) :
      (definitions.filter p).filterMap f = definitions.filterMap f := by
    rw [List.filterMap_filter]
    refine List.filterMap_congr fun d _ ↦ ?_
    cases hd : p d with
    | true => rfl
    | false => exact (hp d hd).symm
  rw [extensionsFirst, List.filterMap_append]
  rcases h with h | h
  · rw [hnone h, hall (by simpa using h), List.nil_append]
  · rw [hall h, hnone (by simpa using h), List.append_nil]

theorem rearranged_extensionsFirst (definitions : List Placed) :
    Rearranged definitions (extensionsFirst definitions) where
  perm := (List.filter_append_perm isTypeExtension definitions).symm
  declarations_eq := by
    refine (filterMap_extensionsFirst (.inl fun d hd ↦ ?_) definitions).symm
    obtain ⟨file, d⟩ := d
    cases d <;> first | rfl | cases hd
  extensions_eq := by
    have hsame : extensions (extensionsFirst definitions) = extensions definitions := by
      refine filterMap_extensionsFirst (.inr fun d hd ↦ ?_) definitions
      obtain ⟨file, d⟩ := d
      cases d <;> first | rfl | cases hd
    intro name
    rw [hsame]

/-- An extension that stands in front of the interface it extends. -/
theorem merge_of_rearranged_split :
    ∃ s s', Load.merge splitSources splitSources.definitions = .ok s ∧
      Load.merge splitSources (extensionsFirst splitSources.definitions) = .ok s' ∧
        s.types = s'.types ∧ s.roots = s'.roots := by
  have hrun : Attempt.succeeds (Load.merge splitSources splitSources.definitions)
      (fun _ ↦ true) = true := by decide +kernel
  obtain ⟨s, hs, -⟩ := (Attempt.succeeds_iff _ _).mp hrun
  rcases merge_of_rearranged (rearranged_extensionsFirst splitSources.definitions) splitSources
    with ⟨⟨e, he⟩, -⟩ | h
  · rw [he] at hs
    cases hs
  · exact h

end SchemaBindings.Merge
