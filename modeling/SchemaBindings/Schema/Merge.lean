import SchemaBindings.Schema.Fault

namespace SchemaBindings

open Sdl

abbrev Placed := Nat × Definition

namespace Merge

/-- Adds the declaration of a type, whose name must be new. -/
def declare (types : List SchemaType) (part : TypePart) : Except LoadError (List SchemaType) :=
  let name := part.definition.name
  let second := name.span.inFile part.file
  if isBuiltinScalar name.text then .error (.duplicateType name.text none second)
  else match findType? types name.text with
    | some first => .error (.duplicateType name.text (some first.location) second)
    | none => .ok (types ++ [⟨part, []⟩])

def addExtension (name : String) (part : TypePart) (types : List SchemaType) : List SchemaType :=
  types.map fun t => if t.name == name then { t with extensions := t.extensions ++ [part] } else t

/-- Adds an extension to the type it names, which must be declared and of the same kind. -/
def extend (types : List SchemaType) (part : TypePart) : Except LoadError (List SchemaType) :=
  let name := part.definition.name.text
  let fail fault :=
    Except.error (.invalidExtension name fault (part.definition.span.inFile part.file))
  match findType? types name with
  | none => fail .undeclared
  | some t =>
    if t.kind = part.definition.kind then .ok (addExtension name part types)
    else fail (.otherKind t.kind part.definition.kind)

def declarations (definitions : List Placed) : List TypePart :=
  definitions.filterMap fun
    | (file, .type d) => some ⟨file, d⟩
    | _ => none

def extensions (definitions : List Placed) : List TypePart :=
  definitions.filterMap fun
    | (file, .typeExtension d) => some ⟨file, d⟩
    | _ => none

def directives (definitions : List Placed) : List (Nat × DirectiveDefinition) :=
  definitions.filterMap fun
    | (file, .directive d) => some (file, d)
    | _ => none

structure SchemaPart where
  file : Nat
  definition : SchemaDefinition
  isExtension : Bool
  deriving Repr, Inhabited

def schemaParts (definitions : List Placed) : List SchemaPart :=
  definitions.filterMap fun
    | (file, .schema d) => some ⟨file, d, false⟩
    | (file, .schemaExtension d) => some ⟨file, d, true⟩
    | _ => none

def types (definitions : List Placed) : Except LoadError (List SchemaType) := do
  let declared ← (declarations definitions).foldlM declare []
  (extensions definitions).foldlM extend declared

structure RootScan where
  /-- The first schema definition that is no extension. -/
  schema : Option Location
  roots : List (OperationKind × String)
  issues : List SchemaIssue
  deriving Repr

namespace RootScan

def report (s : RootScan) (fault : SchemaFault) (location : Location) : RootScan :=
  { s with issues := s.issues ++ [⟨fault, location⟩] }

def noteSchema (s : RootScan) (part : SchemaPart) : RootScan :=
  let location := part.definition.span.inFile part.file
  match s.schema with
  | some first => s.report (.secondSchema first) location
  | none => { s with schema := some location }

/-- Takes the type of an operation; each operation may be given once, and the type must be an object
type. -/
def addOperation (types : List SchemaType) (file : Nat) (s : RootScan) (o : OperationType) :
    RootScan :=
  let name := o.typeName.text
  let s :=
    if (s.roots.lookup o.operation).isSome then
      s.report (.repeatedRoot o.operation) (o.span.inFile file)
    else s
  let s := { s with roots := (o.operation, name) :: s.roots }
  match (findType? types name).map SchemaType.kind with
  | some .object => s
  | some kind => s.report (.rootNotObject name kind) (o.typeName.span.inFile file)
  | none => s.report (.unknownRoot name) (o.typeName.span.inFile file)

def addPart (types : List SchemaType) (s : RootScan) (part : SchemaPart) : RootScan :=
  let s := if part.isExtension then s else s.noteSchema part
  part.definition.operations.foldl (addOperation types part.file) s

end RootScan

/-- The object types that offer operations by their names alone. -/
def conventionalRoots (types : List SchemaType) : List (OperationKind × String) :=
  OperationKind.all.filterMap fun o =>
    match (findType? types o.defaultTypeName).map SchemaType.kind with
    | some .object => some (o, o.defaultTypeName)
    | _ => none

/-- The types that offer the operations. The names alone decide only if there is no schema
definition at all. -/
def roots (types : List SchemaType) (parts : List SchemaPart) : RootScan :=
  if parts.isEmpty then ⟨none, conventionalRoots types, []⟩
  else
    let scan := parts.foldl (RootScan.addPart types) ⟨none, [], []⟩
    { scan with
      roots := OperationKind.all.filterMap fun o =>
        (scan.roots.lookup o).map fun name => (o, name) }

end Merge

end SchemaBindings
