import SchemaBindings.Proofs.Target.Places

namespace SchemaBindings

open Model Template Place Fragment

structure Parameter where
  name : String
  type : String
  isRequired : Bool
  /-- What follows the sign of a default. -/
  defaultText : Option String

namespace Parameter

def assignment (p : Parameter) : String :=
  match p.defaultText with
  | some s => " = " ++ s
  | none => ""

def text (p : Parameter) : Language → String
  | .kotlin | .gdScript => p.name ++ ": " ++ p.type ++ p.assignment
  | .swift => p.name ++ ": " ++ p.type
  | .dart => (bif p.isRequired then "required " else "") ++ p.type ++ " " ++ p.name
  | .typeScript => p.name ++ (bif p.isRequired then "" else "?") ++ ": " ++ p.type

def listText (l : Language) (ps : List Parameter) : String :=
  match l with
  | .kotlin | .swift | .gdScript => ", ".intercalate (ps.map (·.text l))
  | .dart =>
    if ps = [] then "" else "\x7b " ++ ", ".intercalate (ps.map (·.text l)) ++ " \x7d"
  | .typeScript =>
    if ps = [] then "" else "args: \x7b " ++ "; ".intercalate (ps.map (·.text l)) ++ " \x7d"

end Parameter

def Language.operationMarks : Language → String × String × String
  | .kotlin => ("interface ", "Resolver \x7b\n", "\x7d\n")
  | .swift => ("public protocol ", "Resolver \x7b\n", "\x7d\n")
  | .dart => ("abstract class ", "Resolver \x7b\n", "\x7d\n")
  | .typeScript => ("export interface ", "Resolver \x7b\n", "\x7d\n")
  | .gdScript => ("class ", "Resolver extends RefCounted:\n", "")

def Language.methodLead (returnType : String) : Language → String
  | .kotlin => "    suspend fun "
  | .swift => "    func "
  | .dart => "  Future<" ++ returnType ++ "> "
  | .typeScript => "  "
  | .gdScript => "\tfunc "

namespace Target

variable (t : Target)

/-- What is written as the default of an argument that is followed by others. Kotlin writes the sign
for every default, also where the default has no literal. -/
def defaultText? (a : Argument) (others : List Argument) : Option String :=
  match t.language with
  | .kotlin => a.defaultValue.map fun value ↦
    ((Value.ofJson? value.toJson).bind fun value ↦ t.literal? value a.type).getD ""
  | .gdScript =>
    if others.all fun b ↦ (t.parameterDefault? b).isSome then t.parameterDefault? a else none
  | _ => none

def parameter (a : Argument) (others : List Argument) : Parameter :=
  ⟨t.language.fieldName a.name, t.typeText a.type, a.type.isRequired, t.defaultText? a others⟩

def parametersOf : List Argument → List Parameter
  | [] => []
  | a :: others => t.parameter a others :: parametersOf others

def methodEnd (o : Operation) (f : OperationField) : String :=
  match t.language with
  | .kotlin => "): " ++ t.typeText f.returnType ++ "\n"
  | .swift => ") async throws -> " ++ t.typeText f.returnType ++ "\n"
  | .dart => ");\n"
  | .typeScript => "): Promise<" ++ t.typeText f.returnType ++ ">;\n"
  | .gdScript => ") -> " ++ t.typeText f.returnType ++ ":\n" ++ "\t\tpush_error(\"" ++
    t.language.typeName o.typeName ++ "Resolver." ++ t.language.fieldName f.name ++
    " is not implemented\")\n" ++ "\t\treturn " ++ placeholder f.returnType ++ "\n" ++ "\n"

def methodText (o : Operation) (f : OperationField) : List Char :=
  t.comment 1 f.description f.status ++ t.deprecation 1 f.deprecation ++
    (t.language.methodLead (t.typeText f.returnType) ++ t.language.fieldName f.name ++ "(" ++
      Parameter.listText t.language (t.parametersOf f.arguments) ++ t.methodEnd o f).toList

def methodTexts (o : Operation) : List Char :=
  if t.language = .gdScript ∧ o.fields = [] then "\tpass\n".toList
  else o.fields.flatMap (t.methodText o)

/-- An operation as it is written, before it is tidied. -/
def operationLayout (o : Operation) : List Char :=
  let (before, after, ending) := t.language.operationMarks
  before.toList ++ (t.language.typeName o.typeName).toList ++ after.toList ++ t.methodTexts o ++
    ending.toList

variable {t}

theorem map_name_parametersOf (arguments : List Argument) :
    (t.parametersOf arguments).map (·.name) =
      arguments.map fun a ↦ t.language.fieldName a.name := by
  induction arguments with
  | nil => rfl
  | cons a arguments ih => exact congrArg (t.language.fieldName a.name :: ·) ih

theorem parametersOf_eq_nil {arguments : List Argument} :
    t.parametersOf arguments = [] ↔ arguments = [] := by
  cases arguments <;> simp [parametersOf]

theorem parameter_eq {a : Argument} {others : List Argument} (hl : t.language ≠ .gdScript) :
    t.parameter a others = t.parameter a [] := by
  have hdefault : t.defaultText? a others = t.defaultText? a [] := by
    unfold defaultText?
    split
    · rfl
    next h => exact absurd h hl
    · rfl
  rw [parameter, parameter, hdefault]

theorem parametersOf_eq_map (hl : t.language ≠ .gdScript) (arguments : List Argument) :
    t.parametersOf arguments = arguments.map (t.parameter · []) := by
  induction arguments with
  | nil => rfl
  | cons a arguments ih => rw [parametersOf, ih, List.map_cons, parameter_eq hl]

theorem parameterList_eq (hl : t.language = .gdScript) (arguments : List Argument) :
    t.parameterList arguments = (t.parametersOf arguments).map (·.text .gdScript) := by
  induction arguments with
  | nil => rfl
  | cons a others ih =>
    rw [parameterList_cons, ih, parametersOf, List.map_cons]
    congr 1
    simp only [Parameter.text, parameter, Parameter.assignment, defaultText?, hl, declareParameter]
    cases t.parameterDefault? a with
    | none => simp
    | some literal =>
      cases others.all fun b ↦ (t.parameterDefault? b).isSome <;> simp [String.append_assoc]

section Arguments

variable {a : Argument} {last : Bool} {scope : Scope}

theorem holds?_default : (key "default_value").holds? t.operations (⟨a.toJson, last⟩ :: scope) =
    some a.defaultValue.isSome := by
  have hlookup : Scope.lookup (⟨a.toJson, last⟩ :: scope) 0 ["default_value"] =
      some (some (Json.ofOption Value.toJson a.defaultValue)) := rfl
  rw [Place.key, holds?_path hlookup]
  cases a.defaultValue with
  | none => rfl
  | some v => cases v <;> rfl

theorem value?_literal {v : Value} (hv : a.defaultValue = some v) :
    (literal (key "default_value")).value? t.operations (⟨a.toJson, last⟩ :: scope) =
      (Value.ofJson? v.toJson).map fun v ↦ some (.string ((t.literal? v a.type).getD "")) := by
  have hvalue : Scope.lookup (⟨a.toJson, last⟩ :: scope) 0 ["default_value"] =
      some (some (Json.ofOption Value.toJson a.defaultValue)) := rfl
  have htype : Scope.lookup (⟨a.toJson, last⟩ :: scope) 0 ["type"] = some (some a.type.toJson) :=
    rfl
  have hanswer : t.operations .literal [some v.toJson, some a.type.toJson] =
      (Value.ofJson? v.toJson).bind fun v ↦ (TypeExpr.ofJson? a.type.toJson).map fun type ↦
        .string ((t.literal? v type).getD "") := by
    cases v <;> rfl
  have hop : t.operations .literal [some v.toJson, some a.type.toJson] =
      (Value.ofJson? v.toJson).map fun v ↦ .string ((t.literal? v a.type).getD "") := by
    rw [hanswer, a.type.ofJson?_toJson]
    cases Value.ofJson? v.toJson <;> rfl
  simp only [literal, Place.key, Expr.value?, Expr.values?, hvalue, htype, hv, Json.ofOption,
    Option.bind_some, Option.map_some, hop, Option.map_map]
  rfl

theorem spelling_literal {v : Value} (hv : a.defaultValue = some v) :
    (literal (key "default_value")).spelling t.operations (⟨a.toJson, last⟩ :: scope) =
      (((Value.ofJson? v.toJson).bind fun v ↦ t.literal? v a.type).getD "").toList := by
  rw [Expr.spelling, value?_literal hv]
  cases Value.ofJson? v.toJson <;> rfl

theorem spelling_parameterName :
    (fieldName (key "name")).spelling t.operations (⟨a.toJson, last⟩ :: scope) =
      (t.language.fieldName a.name).toList :=
  spelling_fieldName rfl

theorem spelling_parameterType :
    type.spelling t.operations (⟨a.toJson, last⟩ :: scope) = (t.typeText a.type).toList :=
  spelling_typeOf rfl

theorem holds?_parameterRequired :
    isRequired.holds? t.operations (⟨a.toJson, last⟩ :: scope) = some a.type.isRequired :=
  holds?_isRequired rfl

theorem contents_betweenItems (separator : String) {node : Json} :
    (betweenItems separator).contents t.operations (⟨node, some last⟩ :: scope) =
      if last then [] else separator.toList := by
  cases last
  · exact List.append_nil _
  · rfl

theorem contents_arguments (separator : String) (text : Argument → String)
    (f : OperationField) (frame : Option Bool) (scope : Scope) {body : List Fragment}
    (hbody : ∀ (a : Argument) (last : Bool),
      Piece.allContents t.operations body (⟨a.toJson, last⟩ :: ⟨f.toJson, frame⟩ :: scope) =
        (text a).toList ++ if last then [] else separator.toList) :
    (forEach (key "arguments") body).contents t.operations (⟨f.toJson, frame⟩ :: scope) =
      (separator.intercalate (f.arguments.map text)).toList := by
  have hlookup : Scope.lookup (⟨f.toJson, frame⟩ :: scope) 0 ["arguments"] =
      some (some (.array (f.arguments.map Argument.toJson))) := rfl
  rw [Place.key, contents_forEach_separated hlookup hbody, String.toList_intercalate, List.map_map]
  rfl

theorem contents_kotlinParameter (hl : t.language = .kotlin) :
    Piece.allContents t.operations
        [fieldName (key "name"), ": ", type,
          whenHolds (key "default_value") [" = ", literal (key "default_value")],
          betweenItems ", "] (⟨a.toJson, last⟩ :: scope) =
      ((t.parameter a []).text .kotlin).toList ++ if last then [] else ", ".toList := by
  simp only [Parameter.text, Parameter.assignment, parameter, defaultText?, hl,
    Piece.allContents_cons, Piece.allContents_nil, Piece.contents_text, Piece.contents_value,
    spelling_parameterName, spelling_parameterType, contents_whenHolds holds?_default,
    contents_betweenItems]
  cases hv : a.defaultValue with
  | none => simp
  | some v => simp [spelling_literal hv]

theorem contents_swiftParameter :
    Piece.allContents t.operations [fieldName (key "name"), ": ", type, betweenItems ", "]
        (⟨a.toJson, last⟩ :: scope) =
      ((t.parameter a []).text .swift).toList ++ if last then [] else ", ".toList := by
  simp [Parameter.text, parameter, spelling_parameterName, spelling_parameterType,
    contents_betweenItems]

theorem contents_dartParameter :
    Piece.allContents t.operations
        [whenHolds isRequired ["required "], type, " ", fieldName (key "name"), betweenItems ", "]
        (⟨a.toJson, last⟩ :: scope) =
      ((t.parameter a []).text .dart).toList ++ if last then [] else ", ".toList := by
  simp [Parameter.text, parameter, spelling_parameterName, spelling_parameterType,
    contents_whenHolds_text holds?_parameterRequired, contents_betweenItems]

theorem contents_typeScriptParameter :
    Piece.allContents t.operations
        [fieldName (key "name"), unlessHolds isRequired ["?"], ": ", type, betweenItems "; "]
        (⟨a.toJson, last⟩ :: scope) =
      ((t.parameter a []).text .typeScript).toList ++ if last then [] else "; ".toList := by
  simp [Parameter.text, parameter, spelling_parameterName, spelling_parameterType,
    contents_unlessHolds_text holds?_parameterRequired, contents_betweenItems]

end Arguments

section Methods

variable {f : OperationField} {last : Option Bool} {scope : Scope}

theorem spelling_methodDoc : (doc 1).spelling t.operations (⟨f.toJson, last⟩ :: scope) =
    t.comment 1 f.description f.status :=
  spelling_doc 1 rfl rfl

theorem spelling_methodDeprecated :
    (deprecated 1).spelling t.operations (⟨f.toJson, last⟩ :: scope) =
      t.deprecation 1 f.deprecation :=
  spelling_deprecated 1 rfl

theorem spelling_methodName :
    (fieldName (key "name")).spelling t.operations (⟨f.toJson, last⟩ :: scope) =
      (t.language.fieldName f.name).toList :=
  spelling_fieldName rfl

theorem spelling_returnType :
    (typeOf (key "return_type")).spelling t.operations (⟨f.toJson, last⟩ :: scope) =
      (t.typeText f.returnType).toList :=
  spelling_typeOf rfl

theorem holds?_arguments : (key "arguments").holds? t.operations (⟨f.toJson, last⟩ :: scope) =
    some !f.arguments.isEmpty := by
  have hlookup : Scope.lookup (⟨f.toJson, last⟩ :: scope) 0 ["arguments"] =
      some (some (.array (f.arguments.map Argument.toJson))) := rfl
  rw [Place.key, holds?_path hlookup, Json.holds, List.isEmpty_map]

theorem contents_bracedArguments (opening separator closing : String) (text : Argument → String)
    (f : OperationField) (last : Option Bool) (scope : Scope) {body : List Fragment}
    (hbody : ∀ (a : Argument) (inner : Bool),
      Piece.allContents t.operations body (⟨a.toJson, inner⟩ :: ⟨f.toJson, last⟩ :: scope) =
        (text a).toList ++ if inner then [] else separator.toList) :
    (whenHolds (key "arguments") [opening, forEach (key "arguments") body, closing]).contents
        t.operations (⟨f.toJson, last⟩ :: scope) =
      (if f.arguments = [] then ""
        else opening ++ separator.intercalate (f.arguments.map text) ++ closing).toList := by
  rw [contents_whenHolds holds?_arguments]
  by_cases hf : f.arguments = []
  · rw [hf]
    rfl
  · have hempty : f.arguments.isEmpty = false := by simpa using hf
    simp only [hempty, Piece.allContents_cons, Piece.allContents_nil, Piece.contents_text,
      contents_arguments separator text f last scope hbody, if_neg hf]
    simp

theorem map_text_parametersOf (hl : t.language ≠ .gdScript) (arguments : List Argument) :
    (t.parametersOf arguments).map (·.text t.language) =
      arguments.map fun a ↦ (t.parameter a []).text t.language := by
  rw [parametersOf_eq_map hl, List.map_map]
  rfl

theorem contents_kotlinMethod (hl : t.language = .kotlin) (o : Operation) :
    Piece.allContents t.operations
        [doc 1, deprecated 1, "    suspend fun ", fieldName (key "name"), "(",
          forEach (key "arguments")
            [fieldName (key "name"), ": ", type,
             whenHolds (key "default_value") [" = ", literal (key "default_value")],
             betweenItems ", "],
          "): ", typeOf (key "return_type"), "\n"] (⟨f.toJson, last⟩ :: scope) =
      t.methodText o f := by
  have htexts := map_text_parametersOf (by rw [hl]; decide) f.arguments
  rw [hl] at htexts
  have harguments := contents_arguments ", " (fun a ↦ (t.parameter a []).text .kotlin) f last scope
    fun a inner ↦ contents_kotlinParameter hl
  simp [methodText, methodEnd, hl, Language.methodLead, Parameter.listText, htexts, harguments,
    spelling_methodDoc, spelling_methodDeprecated, spelling_methodName, spelling_returnType]

theorem contents_swiftMethod (hl : t.language = .swift) (o : Operation) :
    Piece.allContents t.operations
        [doc 1, deprecated 1, "    func ", fieldName (key "name"), "(",
          forEach (key "arguments") [fieldName (key "name"), ": ", type, betweenItems ", "],
          ") async throws -> ", typeOf (key "return_type"), "\n"] (⟨f.toJson, last⟩ :: scope) =
      t.methodText o f := by
  have htexts := map_text_parametersOf (by rw [hl]; decide) f.arguments
  rw [hl] at htexts
  have harguments := contents_arguments ", " (fun a ↦ (t.parameter a []).text .swift) f last scope
    fun a inner ↦ contents_swiftParameter
  simp [methodText, methodEnd, hl, Language.methodLead, Parameter.listText, htexts, harguments,
    spelling_methodDoc, spelling_methodDeprecated, spelling_methodName, spelling_returnType]

theorem contents_dartMethod (hl : t.language = .dart) (o : Operation) :
    Piece.allContents t.operations
        [doc 1, deprecated 1, "  Future<", typeOf (key "return_type"), "> ",
          fieldName (key "name"), "(",
          whenHolds (key "arguments")
            ["\x7b ",
             forEach (key "arguments")
               [whenHolds isRequired ["required "], type, " ", fieldName (key "name"),
                betweenItems ", "],
             " \x7d"],
          ");\n"] (⟨f.toJson, last⟩ :: scope) =
      t.methodText o f := by
  have htexts := map_text_parametersOf (by rw [hl]; decide) f.arguments
  rw [hl] at htexts
  have harguments := contents_bracedArguments "\x7b " ", " " \x7d"
    (fun a ↦ (t.parameter a []).text .dart) f last scope fun a inner ↦ contents_dartParameter
  simp [methodText, methodEnd, hl, Language.methodLead, Parameter.listText, htexts, harguments,
    parametersOf_eq_nil, spelling_methodDoc, spelling_methodDeprecated, spelling_methodName,
    spelling_returnType]

theorem contents_typeScriptMethod (hl : t.language = .typeScript) (o : Operation) :
    Piece.allContents t.operations
        [doc 1, deprecated 1, "  ", fieldName (key "name"), "(",
          whenHolds (key "arguments")
            ["args: \x7b ",
             forEach (key "arguments")
               [fieldName (key "name"), unlessHolds isRequired ["?"], ": ", type,
                betweenItems "; "],
             " \x7d"],
          "): Promise<", typeOf (key "return_type"), ">;\n"] (⟨f.toJson, last⟩ :: scope) =
      t.methodText o f := by
  have htexts := map_text_parametersOf (by rw [hl]; decide) f.arguments
  rw [hl] at htexts
  have harguments := contents_bracedArguments "args: \x7b " "; " " \x7d"
    (fun a ↦ (t.parameter a []).text .typeScript) f last scope
    fun a inner ↦ contents_typeScriptParameter
  simp [methodText, methodEnd, hl, Language.methodLead, Parameter.listText, htexts, harguments,
    parametersOf_eq_nil, spelling_methodDoc, spelling_methodDeprecated, spelling_methodName,
    spelling_returnType]

end Methods

section Stubs

variable {f : OperationField} {last : Option Bool} {scope : Scope}

theorem contents_gdScriptMethod (hl : t.language = .gdScript) (o : Operation)
    (howner : scope.lookup 0 ["type_name"] = some (some (.string o.typeName))) :
    Piece.allContents t.operations
        [doc 1, deprecated 1, "\tfunc ", fieldName (key "name"), "(", key "params", ") -> ",
          key "return_type", ":\n",
          "\t\tpush_error(\"", typeName (outer "type_name"), "Resolver.", fieldName (key "name"),
          " is not implemented\")\n",
          "\t\treturn ", key "stub", "\n",
          "\n"] (⟨(t.method f).toJson, last⟩ :: scope) =
      t.methodText o f := by
  have hdoc : (doc 1).spelling t.operations (⟨(t.method f).toJson, last⟩ :: scope) =
      t.comment 1 f.description f.status := spelling_doc 1 rfl rfl
  have hdeprecated : (deprecated 1).spelling t.operations (⟨(t.method f).toJson, last⟩ :: scope) =
      t.deprecation 1 f.deprecation := spelling_deprecated 1 rfl
  have hname : (fieldName (key "name")).spelling t.operations
      (⟨(t.method f).toJson, last⟩ :: scope) = (t.language.fieldName f.name).toList :=
    spelling_fieldName rfl
  have hparams : (key "params").spelling t.operations (⟨(t.method f).toJson, last⟩ :: scope) =
      (t.parameters f.arguments).toList := spelling_text rfl
  have hreturn : (key "return_type").spelling t.operations
      (⟨(t.method f).toJson, last⟩ :: scope) = (t.typeText f.returnType).toList := spelling_text rfl
  have hstub : (key "stub").spelling t.operations (⟨(t.method f).toJson, last⟩ :: scope) =
      (placeholder f.returnType).toList := spelling_text rfl
  have howner : (typeName (outer "type_name")).spelling t.operations
      (⟨(t.method f).toJson, last⟩ :: scope) = (t.language.typeName o.typeName).toList :=
    spelling_call t.operations_typeName howner
  simp [methodText, methodEnd, hl, Language.methodLead, Parameter.listText, parameters,
    parameterList_eq hl, hdoc, hdeprecated, hname, hparams, hreturn, hstub, howner]

end Stubs

theorem contents_methods (o : Operation) (node : Json) (toJson : OperationField → Json)
    (hnode : node.member? "fields" = some (.array (o.fields.map toJson))) {body : List Fragment}
    (hbody : ∀ (f : OperationField) (last : Bool),
      Piece.allContents t.operations body (⟨toJson f, last⟩ :: Scope.root node) =
        t.methodText o f) :
    (forEach (key "fields") body).contents t.operations (.root node) =
      o.fields.flatMap (t.methodText o) :=
  contents_forEach (lookup_root hnode) hbody

theorem contents_methods_otherwise (o : Operation) (node : Json) (toJson : OperationField → Json)
    (otherwise : String) (hnode : node.member? "fields" = some (.array (o.fields.map toJson)))
    {body : List Fragment}
    (hbody : ∀ (f : OperationField) (last : Bool),
      Piece.allContents t.operations body (⟨toJson f, last⟩ :: Scope.root node) =
        t.methodText o f) :
    (Piece.each (key "fields") body (some [otherwise])).contents t.operations (.root node) =
      if o.fields = [] then otherwise.toList else o.fields.flatMap (t.methodText o) := by
  have hitems : (key "fields").items t.operations (.root node) = o.fields.map toJson :=
    items_path (lookup_root hnode)
  rw [contents_each_otherwise hitems, contents_methods o node toJson hnode hbody]
  simp only [List.map_eq_nil_iff, Piece.allContents_cons, Piece.contents_text,
    Piece.allContents_nil, List.append_nil]

theorem contents_operation (o : Operation) :
    Piece.allContents t.operations (t.language.template .operation) (.root (t.operationNode o)) =
      t.operationLayout o := by
  have hname : (typeName (key "type_name")).spelling t.operations (.root o.toJson) =
      (t.language.typeName o.typeName).toList := spelling_typeName rfl
  have hplain (hl : t.language ≠ .gdScript) : t.operationNode o = o.toJson := if_neg hl
  cases hl : t.language with
  | kotlin =>
    have hmethods := contents_methods o o.toJson OperationField.toJson rfl
      fun f last ↦ contents_kotlinMethod hl o
    rw [hplain (by rw [hl]; decide)]
    simp [Language.template, Kotlin.operationTemplate, operationLayout, Language.operationMarks,
      methodTexts, hl, hname, hmethods]
  | swift =>
    have hmethods := contents_methods o o.toJson OperationField.toJson rfl
      fun f last ↦ contents_swiftMethod hl o
    rw [hplain (by rw [hl]; decide)]
    simp [Language.template, Swift.operationTemplate, operationLayout, Language.operationMarks,
      methodTexts, hl, hname, hmethods]
  | dart =>
    have hmethods := contents_methods o o.toJson OperationField.toJson rfl
      fun f last ↦ contents_dartMethod hl o
    rw [hplain (by rw [hl]; decide)]
    simp [Language.template, Dart.operationTemplate, operationLayout, Language.operationMarks,
      methodTexts, hl, hname, hmethods]
  | typeScript =>
    have hmethods := contents_methods o o.toJson OperationField.toJson rfl
      fun f last ↦ contents_typeScriptMethod hl o
    rw [hplain (by rw [hl]; decide)]
    simp [Language.template, TypeScript.operationTemplate, operationLayout,
      Language.operationMarks, methodTexts, hl, hname, hmethods]
  | gdScript =>
    have hname : (typeName (key "type_name")).spelling t.operations (.root (t.methodsJson o)) =
        (t.language.typeName o.typeName).toList := spelling_typeName rfl
    have hmethods := contents_methods_otherwise o (t.methodsJson o) (fun f ↦ (t.method f).toJson)
      "\tpass\n" rfl fun f last ↦ contents_gdScriptMethod hl o rfl
    have htexts : t.methodTexts o =
        if o.fields = [] then "\tpass\n".toList else o.fields.flatMap (t.methodText o) := by
      simp only [methodTexts, hl, true_and]
    have hnode : t.operationNode o = t.methodsJson o := if_pos hl
    rw [← htexts] at hmethods
    rw [hnode]
    simp [Language.template, GdScript.operationTemplate, operationLayout, Language.operationMarks,
      hl, hname, hmethods]

end Target

end SchemaBindings
