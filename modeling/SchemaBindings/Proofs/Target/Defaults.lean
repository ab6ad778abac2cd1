import SchemaBindings.Proofs.Model.DistinctNames
import SchemaBindings.Proofs.Target.Literals
import SchemaBindings.Proofs.Target.Parameters
import SchemaBindings.Proofs.Target.Rendering

namespace SchemaBindings

open Model Template Place Fragment

namespace Target

variable {t : Target}

theorem exists_ofJson?_of_operationText (hl : t.language = .kotlin) {o : Operation}
    {text : List Char} (h : t.operationText o = .ok text) {f : OperationField} (hf : f ∈ o.fields)
    {a : Argument} (ha : a ∈ f.arguments) {v : Value} (hv : a.defaultValue = some v) :
    ∃ v', Value.ofJson? v.toJson = some v' := by
  have hwrite : t.write .operation (t.operationNode o) = .ok text := eq_ok_of_refuse_bind h
  have hnode : t.operationNode o = o.toJson := if_neg (by rw [hl]; decide)
  have hfields : (Scope.root o.toJson).lookup 0 ["fields"] =
      some (some (.array (o.fields.map OperationField.toJson))) := rfl
  have harguments (last : Option Bool) (scope : Scope) :
      Scope.lookup (⟨f.toJson, last⟩ :: scope) 0 ["arguments"] =
        some (some (.array (f.arguments.map Argument.toJson))) := rfl
  rw [write, hnode] at hwrite
  split at hwrite
  next written hwritten =>
    rw [hl] at hwritten
    obtain ⟨_, hmethods⟩ := Piece.exists_write?_of_mem hwritten (List.mem_of_getElem? (i := 3) rfl)
    obtain ⟨_, _, hmethod⟩ := exists_writeAll?_of_forEach hfields hmethods hf
    obtain ⟨_, hparameters⟩ := Piece.exists_write?_of_mem hmethod
      (List.mem_of_getElem? (i := 5) rfl)
    obtain ⟨_, _, hparameter⟩ := exists_writeAll?_of_forEach (harguments _ _) hparameters ha
    obtain ⟨_, hdefault⟩ := Piece.exists_write?_of_mem hparameter
      (List.mem_of_getElem? (i := 3) rfl)
    obtain ⟨_, hassignment⟩ := Piece.exists_writeAll?_of_choice hdefault
      (by rw [holds?_default, hv]; rfl)
    obtain ⟨_, hliteral⟩ := Piece.exists_write?_of_mem hassignment
      (List.mem_of_getElem? (i := 1) rfl)
    obtain ⟨_, hvalue, -⟩ := Option.bind_eq_some_iff.mp hliteral
    rw [value?_literal hv] at hvalue
    obtain ⟨v', hv', -⟩ := Option.map_eq_some_iff.mp hvalue
    exact ⟨v', hv'⟩
  next => cases hwrite

theorem mem_defaults_of_mem_arguments {m : Model} {o : Operation} (ho : o ∈ m.operations)
    {f : OperationField} (hf : f ∈ o.fields) {a : Argument} (ha : a ∈ f.arguments) {v : Value}
    (hv : a.defaultValue = some v) : (a.type, v) ∈ m.defaults := by
  refine List.mem_append_right _ (List.mem_flatMap.mpr ⟨f, List.mem_flatMap.mpr ⟨o, ho, hf⟩, ?_⟩)
  refine List.mem_flatMap.mpr ⟨a, ha, ?_⟩
  rw [Argument.defaults, hv]
  exact List.mem_singleton_self _

theorem literal?_eq_none_iff (hobject : t.dialect.object ≠ .none) (v : Value) (type : TypeExpr) :
    t.literal? v type = none ↔ ¬t.HasLiteral v type := by
  rw [← exists_literal?_iff hobject, Option.eq_none_iff_forall_ne_some, not_exists]

theorem assignment_parameter (hl : t.language = .kotlin) {a : Argument}
    (hread : ∀ v, a.defaultValue = some v → Value.ofJson? v.toJson = some v) :
    (t.parameter a []).assignment =
      match a.defaultValue with
      | some v => " = " ++ (t.literal? v a.type).getD ""
      | none => "" := by
  have hdefault : (t.parameter a []).defaultText = a.defaultValue.map fun v ↦
      ((Value.ofJson? v.toJson).bind fun v ↦ t.literal? v a.type).getD "" := by
    rw [parameter, defaultText?, hl]
  rw [Parameter.assignment, hdefault]
  cases hv : a.defaultValue with
  | none => rfl
  | some v => rw [Option.map_some, hread v hv, Option.bind_some]

theorem exists_fileText_of_bindings {options : BindingOptions} {m : Model} {others : Tables}
    {language : Language} {file : BindingFile} (h : bindings options m others language = .ok file) :
    ∃ text, fileText ⟨language, options.selected m, others⟩ options.toFileOptions = .ok text := by
  rw [bindings] at h
  cases htext : fileText ⟨language, options.selected m, others⟩ options.toFileOptions with
  | ok text => exact ⟨text, rfl⟩
  | error e =>
    rw [htext] at h
    cases h

/-- Every default is written with its sign. After the sign stands the literal of the default, which
is not empty, or nothing: the sign stands alone for a default with an object in it whose type is
replaced, or is no input type. -/
theorem operationText_defaults {loaded : LoadedSchema} {tables : Tables} {m : Model}
    (hbuild : Model.build loaded tables = .ok m) {options : BindingOptions} {file : BindingFile}
    (hl : t.language = .kotlin) (hmodel : t.model = options.selected m)
    (hfile : bindings options m t.tables .kotlin = .ok file) :
    ∀ o ∈ t.model.operations, t.operationText o = .ok (tidy (t.operationLayout o)) ∧
      ∀ f ∈ o.fields, t.parametersOf f.arguments = f.arguments.map (t.parameter · []) ∧
        ∀ a ∈ f.arguments,
          (a.defaultValue = none → (t.parameter a []).assignment = "") ∧
          ∀ v, a.defaultValue = some v →
            (∀ literal, t.literal? v a.type = some literal →
              literal ≠ "" ∧ (t.parameter a []).assignment = " = " ++ literal) ∧
            (t.literal? v a.type = none → (t.parameter a []).assignment = " = ") ∧
            (t.literal? v a.type = none ↔ ¬t.HasLiteral v a.type) := by
  have htarget : t = ⟨.kotlin, options.selected m, t.tables⟩ := by rw [← hl, ← hmodel]
  obtain ⟨text, htext⟩ := exists_fileText_of_bindings hfile
  rw [← htarget] at htext
  intro o ho
  have hoperation := operationText_of_fileText htext ho
  refine ⟨hoperation, fun f hf ↦ ⟨parametersOf_eq_map (by rw [hl]; decide) _, fun a ha ↦ ?_⟩⟩
  have hread (v : Value) (hv : a.defaultValue = some v) : Value.ofJson? v.toJson = some v := by
    obtain ⟨v', hv'⟩ := exists_ofJson?_of_operationText hl hoperation hf ha hv
    have hdefault : (a.type, v) ∈ m.defaults :=
      mem_defaults_of_mem_selected (hmodel ▸ mem_defaults_of_mem_arguments ho hf ha hv)
    rw [hv', Value.eq_of_ofJson?_toJson (nodup_names_of_build hbuild hdefault) hv']
  have hassignment := assignment_parameter hl hread
  refine ⟨fun hnone ↦ by rw [hassignment, hnone], fun v hv ↦ ⟨fun literal hliteral ↦ ?_, ?_, ?_⟩⟩
  · refine ⟨literal?_ne_empty hliteral, ?_⟩
    simp only [hassignment, hv, hliteral, Option.getD_some]
  · intro hnone
    simp only [hassignment, hv, hnone, Option.getD_none, String.append_empty]
  · exact literal?_eq_none_iff (by rw [dialect, hl]; decide) v a.type

def filterSources : Sources :=
  [.ofText "find.graphql" ("input Filter \x7b lowest: Int \x7d\n" ++
    "type Query \x7b find(filter: Filter = \x7b lowest: 1 \x7d, limit: Int = 10): Int \x7d")]

theorem operationText_filterSources :
    ∃ loaded m file, Schema.load filterSources = .ok loaded ∧
      Model.build loaded .empty = .ok m ∧
      bindings ⟨anyOptions, true⟩ m .empty .kotlin = .ok file ∧ m.defaults.length = 2 ∧
      ∀ o ∈ m.operations, ∀ f ∈ o.fields, ∀ a ∈ f.arguments, ∀ v, a.defaultValue = some v →
        ∃ literal, literal? ⟨.kotlin, m, .empty⟩ v a.type = some literal ∧ literal ≠ "" ∧
          (parameter ⟨.kotlin, m, .empty⟩ a []).assignment = " = " ++ literal := by
  have hrun : Attempt.succeeds (Schema.load filterSources) (fun loaded ↦
      Attempt.succeeds (Model.build loaded .empty) fun m ↦
        Attempt.succeeds (bindings ⟨anyOptions, true⟩ m .empty .kotlin) fun _ ↦
          m.defaults.length == 2 && m.operations.all fun o ↦ o.fields.all fun f ↦ f.arguments.all fun a ↦
            a.defaultValue.all fun v ↦ (literal? ⟨.kotlin, m, .empty⟩ v a.type).isSome) = true := by
    decide +kernel
  obtain ⟨loaded, hload, hrun⟩ := (Attempt.succeeds_iff _ _).mp hrun
  obtain ⟨m, hbuild, hrun⟩ := (Attempt.succeeds_iff _ _).mp hrun
  obtain ⟨file, hfile, hrun⟩ := (Attempt.succeeds_iff _ _).mp hrun
  obtain ⟨hlength, hall⟩ := Bool.and_eq_true_iff.mp hrun
  refine ⟨loaded, m, file, hload, hbuild, hfile, beq_iff_eq.mp hlength,
    fun o ho f hf a ha v hv ↦ ?_⟩
  have hdefaults := operationText_defaults (t := ⟨.kotlin, m, .empty⟩) hbuild rfl rfl hfile
  have hsome := List.all_eq_true.mp (List.all_eq_true.mp (List.all_eq_true.mp hall o ho) f hf) a ha
  rw [hv] at hsome
  obtain ⟨literal, hliteral⟩ := Option.isSome_iff_exists.mp hsome
  exact ⟨literal, hliteral, (((hdefaults o ho).2 f hf).2 a ha).2 v hv |>.1 literal hliteral⟩

def filterTables : Tables :=
  { Tables.empty with customInputs := [("Filter", [("kotlin", ⟨"Criteria", none⟩)])] }

/-- Without a literal the sign of a default is written all the same. -/
theorem not_unassigned_filter :
    ¬∀ (sources : Sources) (loaded : LoadedSchema) (tables : Tables) (m : Model)
      (options : BindingOptions) (file : BindingFile), Schema.load sources = .ok loaded →
      Model.build loaded tables = .ok m → bindings options m tables .kotlin = .ok file →
      ∀ o ∈ (options.selected m).operations, ∀ f ∈ o.fields, ∀ a ∈ f.arguments, ∀ v,
        a.defaultValue = some v →
        literal? ⟨.kotlin, options.selected m, tables⟩ v a.type = none →
        (parameter ⟨.kotlin, options.selected m, tables⟩ a []).assignment = "" := by
  intro h
  have hrun : Attempt.succeeds (Schema.load filterSources) (fun loaded ↦
      Attempt.succeeds (Model.build loaded filterTables) fun m ↦
        Attempt.succeeds (bindings ⟨anyOptions, true⟩ m filterTables .kotlin) fun _ ↦
          m.operations.any fun o ↦ o.fields.any fun f ↦ f.arguments.any fun a ↦
            a.defaultValue.any fun v ↦ literal? ⟨.kotlin, m, filterTables⟩ v a.type = none ∧
              (parameter ⟨.kotlin, m, filterTables⟩ a []).assignment = " = ") = true := by
    decide +kernel
  obtain ⟨loaded, hload, hrun⟩ := (Attempt.succeeds_iff _ _).mp hrun
  obtain ⟨m, hbuild, hrun⟩ := (Attempt.succeeds_iff _ _).mp hrun
  obtain ⟨file, hfile, hany⟩ := (Attempt.succeeds_iff _ _).mp hrun
  obtain ⟨o, ho, hany⟩ := List.any_eq_true.mp hany
  obtain ⟨f, hf, hany⟩ := List.any_eq_true.mp hany
  obtain ⟨a, ha, hany⟩ := List.any_eq_true.mp hany
  obtain ⟨v, hv, hsign⟩ := (Option.any_eq_true _ _).mp hany
  obtain ⟨hnone, hsign⟩ := of_decide_eq_true hsign
  have hempty := h filterSources loaded filterTables m ⟨anyOptions, true⟩ file hload hbuild hfile
    o ho f hf a ha v hv hnone
  exact absurd (hsign.symm.trans hempty) (by decide)

end Target

end SchemaBindings
