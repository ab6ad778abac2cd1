import SchemaBindings.Json.Basic
import SchemaBindings.KeyedList
import SchemaBindings.Model.Basic
import SchemaBindings.Number.Reading

namespace SchemaBindings.Model

def requiredMember (j : Json) (key : String) (read : Json → Option α) : Option α :=
  (j.member? key).bind read

/-- A member that has the value `missing` where it is not written. -/
def defaultMember (j : Json) (key : String) (missing : α) (read : Json → Option α) : Option α :=
  match j.member? key with
  | some value => read value
  | none => some missing

def readOptional (read : Json → Option α) : Json → Option (Option α)
  | .null => some none
  | j => (read j).map some

def readList (read : Json → Option α) (j : Json) : Option (List α) :=
  j.items?.bind (·.mapM read)

def readOrdinal : Json → Option Nat
  | .int n => if 0 ≤ n ∧ n ≤ 4294967295 then some n.toNat else none
  | _ => none

/-- The word of a choice, which may be the only key of an object with nothing under it. -/
def choiceWord? : Json → Option String
  | .string word => some word
  | .object [(word, .null)] => some word
  | _ => none

def readChoice (all : List α) (text : α → String) (j : Json) : Option α :=
  (choiceWord? j).bind fun word => all.find? fun a => text a == word

def NamedType.toJson (t : NamedType) : Json :=
  .object [("name", .string t.name), ("kind", .string t.kind.text)]

def NamedType.ofJson? (j : Json) : Option NamedType := do
  let j ← j.asRecord? ["name", "kind"]
  let name ← requiredMember j "name" Json.text?
  let kind ← requiredMember j "kind" (readChoice NamedKind.all NamedKind.text)
  some ⟨name, kind⟩

def TypeExpr.toJson : TypeExpr → Json
  | scalar name => .object [("scalar", .string name)]
  | named t => .object [("named", t.toJson)]
  | list t => .object [("list", t.toJson)]
  | nonNull t => .object [("non_null", t.toJson)]

def TypeExpr.ofJson? : Json → Option TypeExpr
  | .object [("scalar", .string name)] => some (scalar name)
  | .object [("named", j)] => (NamedType.ofJson? j).map named
  | .object [("list", j)] => (TypeExpr.ofJson? j).map list
  | .object [("non_null", j)] => (TypeExpr.ofJson? j).map nonNull
  | _ => none

inductive ValueKind where
  | int
  | float
  | string
  | boolean
  | null
  | enum
  | list
  | object
  deriving Repr, DecidableEq

def ValueKind.all : List ValueKind :=
  [.int, .float, .string, .boolean, .null, .enum, .list, .object]

def ValueKind.text : ValueKind → String
  | int => "int"
  | float => "float"
  | string => "string"
  | boolean => "boolean"
  | null => "null"
  | enum => "enum"
  | list => "list"
  | object => "object"

def ValueKind.toJson (k : ValueKind) : Json :=
  .string k.text

def ValueKind.ofJson? : Json → Option ValueKind :=
  readChoice all text

def Value.tagged (kind : ValueKind) (content : Json) : Json :=
  .object [("kind", kind.toJson), ("value", content)]

mutual

def Value.toJson : Value → Json
  | int n => tagged .int (.int n)
  | float x => tagged .float (if x.isFinite then .float x else .null)
  | string s => tagged .string (.string s)
  | boolean b => tagged .boolean (.bool b)
  | null => .object [("kind", ValueKind.null.toJson)]
  | enum name => tagged .enum (.string name)
  | list items => tagged .list (.array (itemsToJson items))
  | object fields => tagged .object (.object (fieldsToJson fields))

def Value.itemsToJson : List Value → List Json
  | [] => []
  | item :: items => item.toJson :: itemsToJson items

def Value.fieldsToJson : List (String × Value) → List (String × Json)
  | [] => []
  | (name, value) :: fields => (name, value.toJson) :: fieldsToJson fields

end

mutual

/-- Reads a value. The value null needs no content. -/
def Value.ofJson? : Json → Option Value
  | .object members =>
    (requiredMember (.object members) "kind" ValueKind.ofJson?).bind fun kind =>
      (ofMembers? kind members).getD (if kind = .null then some null else none)
  | .array [kind, content] => (ValueKind.ofJson? kind).bind fun kind => ofContent? kind content
  | _ => none

def Value.ofMembers? (kind : ValueKind) : List (String × Json) → Option (Option Value)
  | [] => none
  | (key, j) :: members =>
    (ofMembers? kind members).or (if key = "value" then some (ofContent? kind j) else none)

def Value.ofContent? : ValueKind → Json → Option Value
  | .int, .int n => if isWord n then some (int n) else none
  | .float, .int n => some (float (Double.ofRatio (n < 0) n.natAbs 1))
  | .float, .float x => some (float x)
  | .string, .string s => some (string s)
  | .boolean, .bool b => some (boolean b)
  | .null, .null => some null
  | .enum, .string name => some (enum name)
  | .list, .array items => (itemsOfJson? items).map list
  | .object, .object members =>
    (fieldsOfJson? members).map fun fields => object (KeyedList.ofPairs fields)
  | _, _ => none

def Value.itemsOfJson? : List Json → Option (List Value)
  | [] => some []
  | item :: items => do
    let value ← ofJson? item
    let values ← itemsOfJson? items
    some (value :: values)

def Value.fieldsOfJson? : List (String × Json) → Option (List (String × Value))
  | [] => some []
  | (name, j) :: members => do
    let value ← ofJson? j
    let fields ← fieldsOfJson? members
    some ((name, value) :: fields)

end

def Status.toJson (s : Status) : Json :=
  .string s.text

def Status.ofJson? : Json → Option Status :=
  readChoice [.stable, .future] Status.text

def textOrNull (s : Option String) : Json :=
  Json.ofText? s

def readDescription (j : Json) (key : String) : Option (Option String) :=
  defaultMember j key none (readOptional Json.text?)

def readStatus (j : Json) : Option Status :=
  defaultMember j "status" .stable Status.ofJson?

def readTexts (j : Json) (key : String) : Option (List String) :=
  defaultMember j key [] (readList Json.text?)

def Argument.toJson (a : Argument) : Json :=
  .object [("name", .string a.name), ("type", a.type.toJson),
    ("default_value", Json.ofOption Value.toJson a.defaultValue),
    ("description", textOrNull a.description), ("deprecation", textOrNull a.deprecation)]

def Argument.ofJson? (j : Json) : Option Argument := do
  let j ← j.asRecord? ["name", "type", "default_value", "description", "deprecation"]
  let name ← requiredMember j "name" Json.text?
  let type ← requiredMember j "type" TypeExpr.ofJson?
  let defaultValue ← defaultMember j "default_value" none (readOptional Value.ofJson?)
  let description ← readDescription j "description"
  let deprecation ← readDescription j "deprecation"
  some ⟨name, type, defaultValue, description, deprecation⟩

def Field.entries (f : Field) : List (String × Json) :=
  [("name", .string f.name), ("type", f.type.toJson),
    ("arguments", .array (f.arguments.map Argument.toJson)),
    ("default_value", Json.ofOption Value.toJson f.defaultValue),
    ("description", textOrNull f.description), ("deprecation", textOrNull f.deprecation),
    ("status", f.status.toJson)]

def Field.toJson (f : Field) : Json :=
  .object f.entries

def Field.ofJson? (j : Json) : Option Field := do
  let j ← j.asRecord? ["name", "type", "arguments", "default_value", "description", "deprecation",
    "status"]
  let name ← requiredMember j "name" Json.text?
  let type ← requiredMember j "type" TypeExpr.ofJson?
  let arguments ← defaultMember j "arguments" [] (readList Argument.ofJson?)
  let defaultValue ← defaultMember j "default_value" none (readOptional Value.ofJson?)
  let description ← readDescription j "description"
  let deprecation ← readDescription j "deprecation"
  let status ← readStatus j
  some ⟨name, type, arguments, defaultValue, description, deprecation, status⟩

def EnumValue.toJson (v : EnumValue) : Json :=
  .object [("name", .string v.name), ("ordinal", .int v.ordinal),
    ("description", textOrNull v.description), ("deprecation", textOrNull v.deprecation),
    ("status", v.status.toJson)]

def EnumValue.ofJson? (j : Json) : Option EnumValue := do
  let j ← j.asRecord? ["name", "ordinal", "description", "deprecation", "status"]
  let name ← requiredMember j "name" Json.text?
  let ordinal ← requiredMember j "ordinal" readOrdinal
  let description ← readDescription j "description"
  let deprecation ← readDescription j "deprecation"
  let status ← readStatus j
  some ⟨name, ordinal, description, deprecation, status⟩

def EnumAlias.toJson (a : EnumAlias) : Json :=
  .object [("name", .string a.name), ("canonical", .string a.canonical),
    ("ordinal", .int a.ordinal)]

def EnumAlias.ofJson? (j : Json) : Option EnumAlias := do
  let j ← j.asRecord? ["name", "canonical", "ordinal"]
  let name ← requiredMember j "name" Json.text?
  let canonical ← requiredMember j "canonical" Json.text?
  let ordinal ← requiredMember j "ordinal" readOrdinal
  some ⟨name, canonical, ordinal⟩

def EnumType.toJson (e : EnumType) : Json :=
  .object [("name", .string e.name), ("description", textOrNull e.description),
    ("status", e.status.toJson), ("values", .array (e.values.map EnumValue.toJson)),
    ("aliases", .array (e.aliases.map EnumAlias.toJson))]

def EnumType.ofJson? (j : Json) : Option EnumType := do
  let j ← j.asRecord? ["name", "description", "status", "values", "aliases"]
  let name ← requiredMember j "name" Json.text?
  let description ← readDescription j "description"
  let status ← readStatus j
  let values ← requiredMember j "values" (readList EnumValue.ofJson?)
  let aliases ← defaultMember j "aliases" [] (readList EnumAlias.ofJson?)
  some ⟨name, description, status, values, aliases⟩

def RecordType.toJson (r : RecordType) : Json :=
  .object [("name", .string r.name), ("description", textOrNull r.description),
    ("status", r.status.toJson), ("implements", .array (r.implements.map .string)),
    ("fields", .array (r.fields.map Field.toJson))]

def RecordType.ofJson? (j : Json) : Option RecordType := do
  let j ← j.asRecord? ["name", "description", "status", "implements", "fields"]
  let name ← requiredMember j "name" Json.text?
  let description ← readDescription j "description"
  let status ← readStatus j
  let implements ← readTexts j "implements"
  let fields ← requiredMember j "fields" (readList Field.ofJson?)
  some ⟨name, description, status, implements, fields⟩

def InputType.toJson (i : InputType) : Json :=
  .object [("name", .string i.name), ("description", textOrNull i.description),
    ("status", i.status.toJson), ("fields", .array (i.fields.map Field.toJson))]

def InputType.ofJson? (j : Json) : Option InputType := do
  let j ← j.asRecord? ["name", "description", "status", "fields"]
  let name ← requiredMember j "name" Json.text?
  let description ← readDescription j "description"
  let status ← readStatus j
  let fields ← requiredMember j "fields" (readList Field.ofJson?)
  some ⟨name, description, status, fields⟩

def UnionMember.toJson (m : UnionMember) : Json :=
  .object [("name", .string m.name), ("type_name", .string m.typeName),
    ("description", textOrNull m.description), ("deprecation", textOrNull m.deprecation),
    ("status", m.status.toJson)]

def UnionMember.ofJson? (j : Json) : Option UnionMember := do
  let j ← j.asRecord? ["name", "type_name", "description", "deprecation", "status"]
  let name ← requiredMember j "name" Json.text?
  let typeName ← requiredMember j "type_name" Json.text?
  let description ← readDescription j "description"
  let deprecation ← readDescription j "deprecation"
  let status ← readStatus j
  some ⟨name, typeName, description, deprecation, status⟩

def UnionType.entries (u : UnionType) : List (String × Json) :=
  [("name", .string u.name), ("description", textOrNull u.description),
    ("status", u.status.toJson), ("kind", .string u.kind.text),
    ("members", .array (u.members.map UnionMember.toJson))]

def UnionType.toJson (u : UnionType) : Json :=
  .object u.entries

def UnionType.ofJson? (j : Json) : Option UnionType := do
  let j ← j.asRecord? ["name", "description", "status", "kind", "members"]
  let name ← requiredMember j "name" Json.text?
  let description ← readDescription j "description"
  let status ← readStatus j
  let kind ← requiredMember j "kind" (readChoice [.native, .wrapper] UnionKind.text)
  let members ← requiredMember j "members" (readList UnionMember.ofJson?)
  some ⟨name, description, status, kind, members⟩

def ScalarType.toJson (s : ScalarType) : Json :=
  .object [("name", .string s.name), ("description", textOrNull s.description),
    ("status", s.status.toJson)]

def ScalarType.ofJson? (j : Json) : Option ScalarType := do
  let j ← j.asRecord? ["name", "description", "status"]
  let name ← requiredMember j "name" Json.text?
  let description ← readDescription j "description"
  let status ← readStatus j
  some ⟨name, description, status⟩

def OperationField.toJson (f : OperationField) : Json :=
  .object [("name", .string f.name), ("arguments", .array (f.arguments.map Argument.toJson)),
    ("return_type", f.returnType.toJson), ("description", textOrNull f.description),
    ("deprecation", textOrNull f.deprecation), ("status", f.status.toJson)]

def OperationField.ofJson? (j : Json) : Option OperationField := do
  let j ← j.asRecord? ["name", "arguments", "return_type", "description", "deprecation", "status"]
  let name ← requiredMember j "name" Json.text?
  let arguments ← defaultMember j "arguments" [] (readList Argument.ofJson?)
  let returnType ← requiredMember j "return_type" TypeExpr.ofJson?
  let description ← readDescription j "description"
  let deprecation ← readDescription j "deprecation"
  let status ← readStatus j
  some ⟨name, arguments, returnType, description, deprecation, status⟩

def Operation.toJson (o : Operation) : Json :=
  .object [("kind", .string o.kind.text), ("type_name", .string o.typeName),
    ("fields", .array (o.fields.map OperationField.toJson))]

def Operation.ofJson? (j : Json) : Option Operation := do
  let j ← j.asRecord? ["kind", "type_name", "fields"]
  let kind ← requiredMember j "kind" (readChoice OperationKind.all OperationKind.text)
  let typeName ← requiredMember j "type_name" Json.text?
  let fields ← requiredMember j "fields" (readList OperationField.ofJson?)
  some ⟨kind, typeName, fields⟩

def PlatformDefault.toJson (d : PlatformDefault) : Json :=
  .object [("type_name", .string d.typeName), ("field_name", .string d.fieldName),
    ("values", .object (d.values.map fun (language, literal) => (language, .string literal)))]

def readSortedTexts : Json → Option (List (String × String))
  | .object members =>
    (members.mapM fun member => (Json.text? member.2).map fun s => (member.1, s)).map
      KeyedList.sorted
  | _ => none

def PlatformDefault.ofJson? (j : Json) : Option PlatformDefault := do
  let j ← j.asRecord? ["type_name", "field_name", "values"]
  let typeName ← requiredMember j "type_name" Json.text?
  let fieldName ← requiredMember j "field_name" Json.text?
  let values ← requiredMember j "values" readSortedTexts
  some ⟨typeName, fieldName, values⟩

def Metadata.toJson (m : Metadata) : Json :=
  .object [("sources", .array (m.sources.map .string)), ("generator", .string m.generator),
    ("version", .string m.version)]

def Metadata.ofJson? (j : Json) : Option Metadata := do
  let j ← j.asRecord? ["sources", "generator", "version"]
  let sources ← requiredMember j "sources" (readList Json.text?)
  let generator ← requiredMember j "generator" Json.text?
  let version ← requiredMember j "version" Json.text?
  some ⟨sources, generator, version⟩

end SchemaBindings.Model

namespace SchemaBindings

open Model

def Model.toJson (m : Model) : Json :=
  .object [("metadata", m.metadata.toJson), ("scalars", .array (m.scalars.map ScalarType.toJson)),
    ("enums", .array (m.enums.map EnumType.toJson)),
    ("interfaces", .array (m.interfaces.map RecordType.toJson)),
    ("objects", .array (m.objects.map RecordType.toJson)),
    ("inputs", .array (m.inputs.map InputType.toJson)),
    ("unions", .array (m.unions.map UnionType.toJson)),
    ("operations", .array (m.operations.map Operation.toJson)),
    ("platform_defaults", .array (m.platformDefaults.map PlatformDefault.toJson))]

def Model.ofJson? (j : Json) : Option Model := do
  let j ← j.asRecord? ["metadata", "scalars", "enums", "interfaces", "objects", "inputs", "unions",
    "operations", "platform_defaults"]
  let metadata ← requiredMember j "metadata" Metadata.ofJson?
  let scalars ← requiredMember j "scalars" (readList ScalarType.ofJson?)
  let enums ← requiredMember j "enums" (readList EnumType.ofJson?)
  let interfaces ← requiredMember j "interfaces" (readList RecordType.ofJson?)
  let objects ← requiredMember j "objects" (readList RecordType.ofJson?)
  let inputs ← requiredMember j "inputs" (readList InputType.ofJson?)
  let unions ← requiredMember j "unions" (readList UnionType.ofJson?)
  let operations ← requiredMember j "operations" (readList Operation.ofJson?)
  let platformDefaults ← requiredMember j "platform_defaults" (readList PlatformDefault.ofJson?)
  some ⟨metadata, scalars, enums, interfaces, objects, inputs, unions, operations,
    platformDefaults⟩

end SchemaBindings
