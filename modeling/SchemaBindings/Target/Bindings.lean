import SchemaBindings.Model.Stable
import SchemaBindings.Target.ClassShape
import SchemaBindings.Target.Dart
import SchemaBindings.Target.GdScript
import SchemaBindings.Target.Kotlin
import SchemaBindings.Target.Record
import SchemaBindings.Target.Summary
import SchemaBindings.Target.Swift
import SchemaBindings.Target.TypeScript
import SchemaBindings.Template.Tidy

namespace SchemaBindings

open Model Text

def Language.template : Language → TemplateKind → List Fragment
  | .kotlin, .file => Kotlin.fileTemplate
  | .kotlin, .scalar => Kotlin.scalarTemplate
  | .kotlin, .enum => Kotlin.enumTemplate
  | .kotlin, .interface => Kotlin.interfaceTemplate
  | .kotlin, .object => Kotlin.objectTemplate
  | .kotlin, .input => Kotlin.inputTemplate
  | .kotlin, .union => Kotlin.unionTemplate
  | .kotlin, .operation => Kotlin.operationTemplate
  | .swift, .file => Swift.fileTemplate
  | .swift, .scalar => Swift.scalarTemplate
  | .swift, .enum => Swift.enumTemplate
  | .swift, .interface => Swift.interfaceTemplate
  | .swift, .object => Swift.objectTemplate
  | .swift, .input => Swift.inputTemplate
  | .swift, .union => Swift.unionTemplate
  | .swift, .operation => Swift.operationTemplate
  | .dart, .file => Dart.fileTemplate
  | .dart, .scalar => Dart.scalarTemplate
  | .dart, .enum => Dart.enumTemplate
  | .dart, .interface => Dart.interfaceTemplate
  | .dart, .object => Dart.objectTemplate
  | .dart, .input => Dart.inputTemplate
  | .dart, .union => Dart.unionTemplate
  | .dart, .operation => Dart.operationTemplate
  | .typeScript, .file => TypeScript.fileTemplate
  | .typeScript, .scalar => TypeScript.scalarTemplate
  | .typeScript, .enum => TypeScript.enumTemplate
  | .typeScript, .interface => TypeScript.interfaceTemplate
  | .typeScript, .object => TypeScript.interfaceTemplate
  | .typeScript, .input => TypeScript.inputTemplate
  | .typeScript, .union => TypeScript.unionTemplate
  | .typeScript, .operation => TypeScript.operationTemplate
  | .gdScript, .file => GdScript.fileTemplate
  | .gdScript, .scalar => GdScript.scalarTemplate
  | .gdScript, .enum => GdScript.enumTemplate
  | .gdScript, .interface => GdScript.classTemplate
  | .gdScript, .object => GdScript.classTemplate
  | .gdScript, .input => GdScript.inputTemplate
  | .gdScript, .union => GdScript.unionTemplate
  | .gdScript, .operation => GdScript.operationTemplate

structure FileOptions where
  header : Bool
  package : Option String
  deriving Repr, DecidableEq

namespace Target

variable (t : Target)

def write (kind : TemplateKind) (node : Json) : Except BindingError (List Char) :=
  match Template.write? t.operations (t.language.template kind) node with
  | some text => .ok (Template.tidy text)
  | none => .error (.template kind)

def refuse (c : Construct) : Option Obstacle → Except BindingError Unit
  | some o => .error (.unsupported c o)
  | none => .ok ()

def within (c : Construct) (e : Except Obstacle α) : Except BindingError α :=
  e.mapError (.unsupported c)

def fieldIdentifiers (names : List String) : List Declared :=
  names.map fun name => ⟨name, t.language.fieldName name⟩

/-- The cases of an enum, then its older names. -/
def caseIdentifiers (e : EnumType) : List Declared :=
  (e.values.map (·.name) ++ e.aliases.map (·.name)).map fun name =>
    ⟨name, t.language.caseName name⟩

def variantIdentifiers (u : UnionType) : List Declared :=
  u.members.map fun member => ⟨member.name, t.language.variantName member.name⟩

def typeIdentifier (name : String) : Declared :=
  ⟨name, t.language.typeName name⟩

def inputIdentifier (i : InputType) : Declared :=
  match t.customInput? i.name with
  | some custom => ⟨i.name, custom.typeName⟩
  | none => t.typeIdentifier i.name

def operationIdentifier (o : Operation) : Declared :=
  ⟨o.typeName ++ " resolver", t.language.typeName o.typeName ++ "Resolver"⟩

def variantClasses : List Declared :=
  (t.model.unions.filter (·.kind == .wrapper)).flatMap fun u => u.members.map fun member =>
    ⟨u.name ++ "." ++ member.name,
      t.language.typeName u.name ++ t.language.variantName member.name⟩

/-- What a language declares beside the declarations of the model. -/
def extraIdentifiers : List Declared :=
  match t.language with
  | .kotlin | .dart => t.variantClasses
  | .swift => []
  | .typeScript => t.model.enums.map fun e =>
    ⟨e.name ++ " ordinals", t.language.typeName e.name ++ "Ordinal"⟩
  | .gdScript => t.model.enums.map fun e =>
    ⟨e.name ++ " raw values", Naming.Style.constant.apply e.name ++ "_BY_VALUE"⟩

def fileIdentifiers : List Declared :=
  t.model.scalars.map (fun s => t.typeIdentifier s.name) ++
    t.model.enums.map (fun e => t.typeIdentifier e.name) ++
    t.model.interfaces.map (fun r => t.typeIdentifier r.name) ++
    t.model.objects.map (fun r => t.typeIdentifier r.name) ++
    t.model.inputs.map t.inputIdentifier ++
    t.model.unions.map (fun u => t.typeIdentifier u.name) ++
    t.model.operations.map t.operationIdentifier ++
    t.extraIdentifiers

def scalarText (s : ScalarType) : Except BindingError (List Char) :=
  t.write .scalar s.toJson

def enumText (e : EnumType) : Except BindingError (List Char) := do
  refuse (.enum e.name) (Declared.clash? (t.caseIdentifiers e))
  t.write .enum e.toJson

/-- An interface. Where interfaces are protocols, its fields cannot be narrowed. -/
def interfaceText (r : RecordType) : Except BindingError (List Char) := do
  if t.language = .swift then refuse (.interface r.name) (t.narrowing? r)
  refuse (.interface r.name) (Declared.clash? (t.fieldIdentifiers (r.fields.map (·.name))))
  let node := if t.language = .gdScript then (ClassShape.ofRecord t.model r).toJson else r.toJson
  t.write .interface node

def objectText (r : RecordType) : Except BindingError (List Char) :=
  match t.language with
  | .swift => do
    let record ← within (.object r.name) (t.record r)
    t.write .object record.toJson
  | language => do
    refuse (.object r.name) (Declared.clash? (t.fieldIdentifiers (r.fields.map (·.name))))
    let node := if language = .gdScript then (ClassShape.ofRecord t.model r).toJson else r.toJson
    t.write .object node

/-- An input type. One that is replaced is written as the tables say, or not at all. -/
def inputText (i : InputType) : Except BindingError (List Char) :=
  match t.customInput? i.name, t.language with
  | some custom, _ => .ok (custom.declaration.getD "").toList
  | none, .swift => do
    let record ← within (.input i.name) (t.record i.asRecord)
    t.write .input record.toJson
  | none, _ => do
    refuse (.input i.name) (Declared.clash? (t.fieldIdentifiers (i.fields.map (·.name))))
    t.write .input i.toJson

def unionText (u : UnionType) : Except BindingError (List Char) := do
  refuse (.union u.name) (Declared.clash? (t.variantIdentifiers u))
  let node :=
    if t.language = .swift then
      .object (u.entries ++ [("indirect", .bool (t.storesItself u.name))])
    else u.toJson
  t.write .union node

def operationText (o : Operation) : Except BindingError (List Char) := do
  refuse (.operation o.kind o.typeName)
    (Declared.clash? (t.fieldIdentifiers (o.fields.map (·.name))))
  t.write .operation (if t.language = .gdScript then t.methodsJson o else o.toJson)

def declarationTexts : Except BindingError (List (List Char)) := do
  let scalars ← t.model.scalars.mapM t.scalarText
  let enums ← t.model.enums.mapM t.enumText
  let interfaces ← t.model.interfaces.mapM t.interfaceText
  let objects ← t.model.objects.mapM t.objectText
  let inputs ← t.model.inputs.mapM t.inputText
  let unions ← t.model.unions.mapM t.unionText
  let operations ← t.model.operations.mapM t.operationText
  return scalars ++ enums ++ interfaces ++ objects ++ inputs ++ unions ++ operations

/-- Declarations with a blank line between each two of them. Empty ones are left out. -/
def joinDeclarations (texts : List (List Char)) : List Char :=
  ['\n', '\n'].intercalate ((texts.map trimEnd).filter (· ≠ []))

def fileJson (options : FileOptions) (body : List Char) : Json :=
  .object [("language", .string t.language.text), ("file_name", .string t.language.fileName),
    ("header", .bool options.header), ("package", Json.ofText? options.package),
    ("generator", .string t.model.metadata.generator),
    ("version", .string t.model.metadata.version),
    ("sources", .array (t.model.metadata.sources.map .string)), ("body", .string (.ofList body))]

/-- The contents of the file, if the identifiers that it declares are distinct. -/
def fileText (options : FileOptions) : Except BindingError (List Char) := do
  refuse (.file t.language.fileName) (Declared.clash? t.fileIdentifiers)
  let texts ← t.declarationTexts
  t.write .file (t.fileJson options (joinDeclarations texts))

end Target

structure BindingOptions extends FileOptions where
  /-- Whether declarations that are not available everywhere are written. -/
  includeFuture : Bool
  deriving Repr, DecidableEq

structure BindingFile where
  language : Language
  contents : String
  summary : Summary
  deriving Repr, DecidableEq

def BindingFile.name (f : BindingFile) : String :=
  f.language.fileName

def BindingOptions.selected (options : BindingOptions) (m : Model) : Model :=
  if options.includeFuture then m else m.stable

def bindings (options : BindingOptions) (m : Model) (tables : Tables) (language : Language) :
    Except BindingError BindingFile :=
  let m := options.selected m
  (Target.fileText ⟨language, m, tables⟩ options.toFileOptions).map fun text =>
    ⟨language, .ofList text, .forLanguage m tables language⟩

end SchemaBindings
