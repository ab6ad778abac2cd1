import SchemaBindings.Model.Basic
import SchemaBindings.Model.BuildError
import SchemaBindings.Schema.Load
import SchemaBindings.KeyedList
import SchemaBindings.Tables

namespace SchemaBindings

/-- The last part of a path, or the whole path if that part names no file. -/
def baseName (path : String) : String :=
  let parts := (Text.splitAt (· == '/') path.toList).filter fun part => part ≠ [] ∧ part ≠ ['.']
  match parts.getLast? with
  | none | some ['.', '.'] => path
  | some part => .ofList part

namespace Model.Build

open Sdl

/-- The types of a schema, its markers, and the object types that stand for unions. -/
structure Context where
  loaded : LoadedSchema
  wrappers : List String

namespace Context

def schema (c : Context) : Schema :=
  c.loaded.schema

/-- Whether the declaration at `offset` of a file has a marker. -/
def hasMarker (c : Context) (file offset : Nat) (kind : MarkerKind) : Bool :=
  c.loaded.markers.has file (c.schema.sources.file file) offset kind

def status (c : Context) (file offset : Nat) : Status :=
  if c.hasMarker file offset .future then .future else .stable

def refuseUnionMarker (c : Context) (file offset : Nat) (span : Span) (target : String) :
    Except BuildError Unit :=
  if c.hasMarker file offset .union then
    .error (.unsupportedMarker .union target (span.inFile file))
  else .ok ()

def namedKind (c : Context) (name : String) : TypeKind → NamedKind
  | .scalar => .scalar
  | .enum => .enum
  | .object => if c.wrappers.contains name then .union else .object
  | .interface => .interface
  | .union => .union
  | .inputObject => .input

def typeExpr (c : Context) (referrer : String) : TypeRef → Except BuildError TypeExpr
  | .named name _ =>
    if isBuiltinScalar name then .ok (.scalar name)
    else match c.schema.kind? name with
      | some kind => .ok (.named ⟨name, c.namedKind name kind⟩)
      | none => .error (.unresolvedType name referrer)
  | .list t _ => (c.typeExpr referrer t).map .list
  | .nonNull t _ => (c.typeExpr referrer t).map .require

end Context

mutual

/-- The value that a literal denotes. Variables do not occur in defaults. -/
def value : Sdl.Value → Model.Value
  | .int n _ => .int n
  | .float x _ => .float x
  | .string s _ => .string s
  | .boolean b _ => .boolean b
  | .null _ | .variableRef _ => .null
  | .enum name => .enum name.text
  | .list items _ => .list (valueItems items)
  | .object fields _ => .object (KeyedList.ofPairs (valueFields fields))

def valueItems : List Sdl.Value → List Model.Value
  | [] => []
  | item :: items => value item :: valueItems items

def valueFields : List (Name × Sdl.Value) → List (String × Model.Value)
  | [] => []
  | (name, v) :: fields => (name.text, value v) :: valueFields fields

end

def descriptionOf (d : Option Description) : Option String :=
  d.map (·.value)

variable (c : Context)

def argument (owner : String) (a : InputValueDefinition) : Except BuildError Argument := do
  let name := a.name.text
  let type ← c.typeExpr s!"argument `{name}` of {owner}" a.type
  return ⟨name, type, a.defaultValue.map value, descriptionOf a.description,
    deprecation? a.directives⟩

def field (owner : String) (file : Nat) (f : FieldDefinition) : Except BuildError Field := do
  let name := f.name.text
  c.refuseUnionMarker file f.start f.name.span s!"field `{owner}.{name}`"
  let referrer := s!"`{owner}.{name}`"
  let type ← c.typeExpr referrer f.type
  let arguments ← f.arguments.mapM (argument c referrer)
  return ⟨name, type, arguments, none, descriptionOf f.description, deprecation? f.directives,
    c.status file f.start⟩

def inputField (owner : String) (file : Nat) (f : InputValueDefinition) :
    Except BuildError Field := do
  let name := f.name.text
  c.refuseUnionMarker file f.start f.name.span s!"input field `{owner}.{name}`"
  let type ← c.typeExpr s!"`{owner}.{name}`" f.type
  return ⟨name, type, [], f.defaultValue.map value, descriptionOf f.description,
    deprecation? f.directives, c.status file f.start⟩

def enumValue (owner : String) (ordinal file : Nat) (v : EnumValueDefinition) :
    Except BuildError EnumValue := do
  let name := v.name.text
  c.refuseUnionMarker file v.start v.name.span s!"enum value `{owner}.{name}`"
  return ⟨name, ordinal, descriptionOf v.description, deprecation? v.directives,
    c.status file v.start⟩

/-- A field of a wrapper as a case of the union: a single composite type without arguments. -/
def wrapperMember (wrapper : String) (file : Nat) (f : FieldDefinition) :
    Except BuildError UnionMember := do
  let name := f.name.text
  let invalid (fault : MemberFault) : Except BuildError UnionMember :=
    .error (.invalidWrapperMember wrapper name fault (f.name.span.inFile file))
  if !f.arguments.isEmpty then invalid .takesArguments
  else
    let type ← c.typeExpr s!"`{wrapper}.{name}`" f.type
    if type.isList then invalid (.isList type)
    else match type.named? with
      | some ⟨typeName, .object⟩ | some ⟨typeName, .interface⟩ | some ⟨typeName, .union⟩ =>
        return ⟨name, typeName, descriptionOf f.description, deprecation? f.directives,
          c.status file f.start⟩
      | _ => invalid (.notComposite type)

def fields (t : SchemaType) : Except BuildError (List Field) :=
  t.fields.mapM fun (file, f) => field c t.name file f

def record (t : SchemaType) (status : Status) : Except BuildError RecordType := do
  let fields ← fields c t
  return ⟨t.name, t.description, status, t.implements.map fun (_, n) => n.text, fields⟩

def addDeclaration (m : Model) (t : SchemaType) : Except BuildError Model := do
  let status := c.status t.file t.definition.start
  match t.kind with
  | .scalar => return { m with scalars := m.scalars ++ [⟨t.name, t.description, status⟩] }
  | .enum =>
    let values ← t.values.zipIdx.mapM fun ((file, v), i) => enumValue c t.name i file v
    return { m with enums := m.enums ++ [⟨t.name, t.description, status, values, []⟩] }
  | .object =>
    if c.wrappers.contains t.name then
      let members ← t.fields.mapM fun (file, f) => wrapperMember c t.name file f
      return { m with unions := m.unions ++ [⟨t.name, t.description, status, .wrapper, members⟩] }
    else
      let r ← record c t status
      return { m with objects := m.objects ++ [r] }
  | .interface =>
    let r ← record c t status
    return { m with interfaces := m.interfaces ++ [r] }
  | .inputObject =>
    let fields ← t.inputFields.mapM fun (file, f) => inputField c t.name file f
    return { m with inputs := m.inputs ++ [⟨t.name, t.description, status, fields⟩] }
  | .union =>
    let members := t.members.map fun (_, n) => ⟨n.text, n.text, none, none, .stable⟩
    return { m with unions := m.unions ++ [⟨t.name, t.description, status, .native, members⟩] }

/-- Whether a type is a declaration of the model: it offers no operation and is no part of the
language itself. -/
def isDeclared (t : SchemaType) : Bool :=
  !"__".toList.isPrefixOf t.name.toList && !c.schema.isRoot t.name

def operationKind : Sdl.OperationKind → OperationKind
  | .query => .query
  | .mutation => .mutation
  | .subscription => .subscription

/-- A field of an operation is not available before the type that offers it. -/
def operationField (rootStatus : Status) (f : Field) : OperationField :=
  ⟨f.name, f.arguments, f.type, f.description, f.deprecation,
    if rootStatus.isFuture then .future else f.status⟩

def operation (kind : Sdl.OperationKind) (root : SchemaType) : Except BuildError Operation := do
  let status := c.status root.file root.definition.start
  let fields ← fields c root
  return ⟨operationKind kind, root.name, fields.map (operationField status)⟩

def operations : Except BuildError (List Operation) :=
  (Sdl.OperationKind.all.filterMap fun kind =>
    (c.schema.root? kind).map fun root => (kind, root)).mapM fun (kind, root) =>
      operation c kind root

/-- Adds an older name of an enum value. It must differ from all names that the enum has. -/
def addAlias (canonical : String) (ordinal : Nat) (e : EnumType) (olderName : String) :
    Except BuildError EnumType :=
  if e.values.any (·.name == olderName) || e.aliases.any (·.name == olderName) then
    .error (.duplicateAlias e.name olderName)
  else .ok { e with aliases := e.aliases ++ [⟨olderName, canonical, ordinal⟩] }

def addAliases (e : EnumType) (row : String × List String) : Except BuildError EnumType :=
  match e.value? row.1 with
  | none => .error (.unknownAliasTarget e.name row.1)
  | some v => row.2.foldlM (addAlias row.1 v.ordinal) e

def replaceFirst (p : α → Bool) (new : α) : List α → List α
  | [] => []
  | a :: as => if p a then new :: as else a :: replaceFirst p new as

def applyAliases (tables : Tables) (m : Model) : Except BuildError Model :=
  if tables.legacyAliases.isEmpty then .ok m
  else match m.enum? tables.errorCodeEnum with
    | none => .error (.unresolvedType tables.errorCodeEnum "error_code_legacy_aliases")
    | some e => do
      let e ← tables.legacyAliases.foldlM addAliases e
      return { m with enums := replaceFirst (·.name == tables.errorCodeEnum) e m.enums }

def fieldsOf? (m : Model) (name : String) : Option (List Field) :=
  ((m.object? name).map (·.fields)).or
    (((m.input? name).map (·.fields)).or ((m.interface? name).map (·.fields)))

def platformDefault (type : String) (fields : List Field)
    (row : String × List (String × String)) : Except BuildError PlatformDefault :=
  if fields.any (·.name == row.1) then .ok ⟨type, row.1, row.2⟩
  else .error (.unresolvedField type row.1 "platform_type_defaults")

def platformDefaults (m : Model) (row : String × List (String × List (String × String))) :
    Except BuildError (List PlatformDefault) :=
  match fieldsOf? m row.1 with
  | none => .error (.unresolvedType row.1 "platform_type_defaults")
  | some fields => row.2.mapM (platformDefault row.1 fields)

def applyDefaults (tables : Tables) (m : Model) : Except BuildError Model := do
  let rows ← tables.platformDefaults.mapM (platformDefaults m)
  return { m with platformDefaults := rows.flatten }

def checkCustomInput (s : Schema) (name : String) : Except BuildError Unit :=
  match s.kind? name with
  | some .inputObject => .ok ()
  | some kind => .error (.notInputType name kind.display "custom_input_types")
  | none => .error (.unresolvedType name "custom_input_types")

/-- The object types marked as unions. The mark is refused on all other types. -/
def wrappers (loaded : LoadedSchema) : Except BuildError (List String) := do
  let s := loaded.schema
  let c : Context := ⟨loaded, []⟩
  let marked := s.types.filter fun t => c.hasMarker t.file t.definition.start .union
  marked.mapM fun t =>
    if s.isRoot t.name then
      throw (.unsupportedMarker .union s!"root operation type `{t.name}`" t.location)
    else if t.kind ≠ .object then
      throw (.unsupportedMarker .union s!"{t.kind.display} `{t.name}`" t.location)
    else return t.name

end Model.Build

open Model.Build in
/-- The model of a schema, with the tables applied, each row of which must find its target. -/
def Model.build (loaded : LoadedSchema) (tables : Tables) : Except BuildError Model := do
  let wrappers ← Build.wrappers loaded
  let c : Context := ⟨loaded, wrappers⟩
  let sources := c.schema.sources.map fun f => baseName f.name
  let m ← (c.schema.types.filter (isDeclared c)).foldlM (addDeclaration c)
    (.empty (.signed sources))
  let operations ← Build.operations c
  let m ← applyAliases tables { m with operations := operations }
  let m ← applyDefaults tables m
  tables.customInputs.forM fun row => checkCustomInput c.schema row.1
  return m

end SchemaBindings
