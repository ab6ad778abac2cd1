import SchemaBindings.Proofs.Target.FileNames
import SchemaBindings.Proofs.Target.Identifiers
import SchemaBindings.Proofs.Target.Operations

namespace SchemaBindings

open Model Template

namespace Target

variable {t : Target}

theorem eq_tidy_of_write {kind : TemplateKind} {node : Json} {text : List Char}
    (h : t.write kind node = .ok text) :
    text = tidy (Piece.allContents t.operations (t.language.template kind) (.root node)) := by
  rw [write] at h
  split at h
  next written hwritten =>
    cases h
    exact congrArg tidy (Piece.eq_allContents_of_writeAll? hwritten)
  next => cases h

theorem eq_tidy_of_operationText {o : Operation} {text : List Char}
    (h : t.operationText o = .ok text) : text = tidy (t.operationLayout o) := by
  rw [← contents_operation]
  exact eq_tidy_of_write (eq_ok_of_refuse_bind h)

theorem exists_partText_of_fileText {options : FileOptions} {text : List Char}
    (h : t.fileText options = .ok text) {p : Part} (hp : p ∈ t.model.parts) :
    ∃ part, t.partText p = .ok part := by
  obtain ⟨-, -, h⟩ := (Attempt.bind_eq_ok_iff _ _ _).mp h
  obtain ⟨texts, htexts, -⟩ := (Attempt.bind_eq_ok_iff _ _ _).mp h
  rw [declarationTexts_eq_mapM] at htexts
  obtain ⟨part, -, hpart⟩ := Attempt.exists_ok_of_mapM_of_mem htexts p hp
  exact ⟨part, hpart⟩

theorem operation_mem_parts {m : Model} {o : Operation} (ho : o ∈ m.operations) :
    Part.operation o ∈ m.parts :=
  List.mem_append_right _ (List.mem_map_of_mem ho)

theorem operationText_of_fileText {options : FileOptions} {text : List Char}
    (h : t.fileText options = .ok text) {o : Operation} (ho : o ∈ t.model.operations) :
    t.operationText o = .ok (tidy (t.operationLayout o)) := by
  obtain ⟨part, hpart⟩ := exists_partText_of_fileText h (operation_mem_parts ho)
  have hpart : t.operationText o = .ok part := hpart
  rw [hpart, eq_tidy_of_operationText hpart]

theorem operationText_unsupported_iff (o : Operation) :
    (∃ c obstacle, t.operationText o = .error (.unsupported c obstacle)) ↔
      ¬(o.fields.map fun f ↦ t.language.fieldName f.name).Nodup := by
  have hnames : (t.fieldIdentifiers (o.fields.map (·.name))).map (·.identifier) =
      o.fields.map fun f ↦ t.language.fieldName f.name := by
    rw [fieldIdentifiers, List.map_map, List.map_map]
    rfl
  rw [← hnames, ← Declared.clash?_eq_none, operationText]
  cases Declared.clash? (t.fieldIdentifiers (o.fields.map (·.name))) with
  | none =>
    refine iff_of_false ?_ (not_not_intro rfl)
    rintro ⟨c, obstacle, h⟩
    have hwrite : t.write .operation (t.operationNode o) = .error (.unsupported c obstacle) := h
    rw [write] at hwrite
    split at hwrite <;> cases hwrite
  | some obstacle => exact iff_of_true ⟨_, obstacle, rfl⟩ (Option.some_ne_none obstacle)

theorem nodup_parameters_iff (arguments : List Argument) :
    ((t.parametersOf arguments).map (·.name)).Nodup ↔
      t.language.KeepsApart t.dialect.fieldStyle (arguments.map (·.name)) := by
  rw [map_name_parametersOf, ← Language.nodup_map_memberName_iff, List.map_map]
  rfl

/-- Each method has the parameters of all its arguments in order, whether their names are distinct
or not. Distinct arguments always have distinct parameters only where the names of fields are kept
and reserved words are quoted or free. No operation is refused for its arguments. -/
theorem fileText_parameters (t : Target) (options : FileOptions) :
    (∀ text, t.fileText options = .ok text → ∀ o ∈ t.model.operations,
      t.operationText o = .ok (tidy (t.operationLayout o)) ∧ ∀ f ∈ o.fields,
        (t.parametersOf f.arguments).map (·.name) =
          (f.arguments.map fun a ↦ t.language.fieldName a.name) ∧
        (((t.parametersOf f.arguments).map (·.name)).Nodup ↔
          t.language.KeepsApart t.dialect.fieldStyle (f.arguments.map (·.name))) ∧
        (t.language ≠ .dart → t.language ≠ .gdScript → (∀ a ∈ f.arguments, IsName a.name) →
          (f.arguments.map (·.name)).Nodup → ((t.parametersOf f.arguments).map (·.name)).Nodup)) ∧
    ∀ o, (∃ c obstacle, t.operationText o = .error (.unsupported c obstacle)) ↔
      ¬(o.fields.map fun f ↦ t.language.fieldName f.name).Nodup := by
  refine ⟨fun text h o ho ↦ ⟨operationText_of_fileText h ho, fun f hf ↦ ?_⟩,
    operationText_unsupported_iff⟩
  refine ⟨map_name_parametersOf f.arguments, nodup_parameters_iff f.arguments, ?_⟩
  intro hdart hgdScript hnames hdistinct
  have hkept : t.dialect.fieldStyle = .preserve ∧
      (t.dialect.freeMembers = true ∨ t.dialect.escape = .backticks) := by
    unfold dialect
    cases hl : t.language with
    | dart => exact absurd hl hdart
    | gdScript => exact absurd hl hgdScript
    | _ => decide
  rw [nodup_parameters_iff, hkept.1]
  exact (Language.keepsApart_preserve_iff (List.forall_mem_map.mpr hnames) hkept.2).mpr hdistinct

def findModel (names : List String) : Model :=
  { Model.empty (.signed ["find.graphql"]) with
    operations := [⟨.query, "Query", [⟨"find",
      names.map fun name ↦ ⟨name, .scalar "Int", none, none, none⟩, .scalar "Int", none, none,
      .stable⟩]⟩] }

theorem fileText_findModel :
    ∃ text, fileText ⟨.dart, findModel ["class", "limit"], .empty⟩ anyOptions = .ok text ∧
      ∀ o ∈ (findModel ["class", "limit"]).operations,
        operationText ⟨.dart, findModel ["class", "limit"], .empty⟩ o =
          .ok (tidy (operationLayout ⟨.dart, findModel ["class", "limit"], .empty⟩ o)) ∧
        ∀ f ∈ o.fields,
          (parametersOf ⟨.dart, findModel ["class", "limit"], .empty⟩ f.arguments).map (·.name) =
            ["class_", "limit"] := by
  have hrun : Attempt.succeeds (fileText ⟨.dart, findModel ["class", "limit"], .empty⟩ anyOptions)
      (fun _ ↦ true) = true := by decide +kernel
  obtain ⟨text, htext, -⟩ := (Attempt.succeeds_iff _ _).mp hrun
  have hparameters := (fileText_parameters
    ⟨.dart, findModel ["class", "limit"], .empty⟩ anyOptions).1 text htext
  refine ⟨text, htext, fun o ho ↦ ⟨(hparameters o ho).1, fun f hf ↦ ?_⟩⟩
  rw [((hparameters o ho).2 f hf).1]
  obtain rfl := List.mem_singleton.mp ho
  obtain rfl := List.mem_singleton.mp hf
  decide +kernel

/-- Two arguments that are spelled alike become one name, and the file is written all the same. -/
theorem not_distinct_fooBar :
    ¬∀ (t : Target) (options : FileOptions) (text : List Char), t.fileText options = .ok text →
      ∀ o ∈ t.model.operations, ∀ f ∈ o.fields, (f.arguments.map (·.name)).Nodup →
        (f.arguments.map fun a ↦ t.language.fieldName a.name).Nodup := by
  intro h
  have hrun : Attempt.succeeds
      (fileText ⟨.gdScript, findModel ["fooBar", "foo_bar"], .empty⟩ anyOptions)
      (fun _ ↦ true) = true := by decide +kernel
  obtain ⟨text, htext, -⟩ := (Attempt.succeeds_iff _ _).mp hrun
  have hdistinct := h ⟨.gdScript, findModel ["fooBar", "foo_bar"], .empty⟩ anyOptions text htext
    _ (List.mem_singleton_self _) _ (List.mem_singleton_self _) (by decide)
  have hsame : Language.gdScript.fieldName "fooBar" = Language.gdScript.fieldName "foo_bar" := by
    decide +kernel
  exact (List.nodup_cons.mp hdistinct).1 (List.mem_singleton.mpr hsame)

end Target

end SchemaBindings
