import SchemaBindings.Sdl.Document
import SchemaBindings.Source.File
import SchemaBindings.Source.NameTable

namespace SchemaBindings

open Sdl

structure TypePart where
  file : Nat
  definition : TypeDefinition
  deriving Repr, Inhabited

/-- A declared type with its extensions. -/
structure SchemaType where
  declaration : TypePart
  extensions : List TypePart
  deriving Repr, Inhabited

namespace SchemaType

def file (t : SchemaType) : Nat :=
  t.declaration.file

def definition (t : SchemaType) : TypeDefinition :=
  t.declaration.definition

def name (t : SchemaType) : String :=
  t.definition.name.text

def kind (t : SchemaType) : TypeKind :=
  t.definition.kind

def location (t : SchemaType) : Location :=
  t.definition.name.span.inFile t.file

def description (t : SchemaType) : Option String :=
  t.definition.description.map (·.value)

def parts (t : SchemaType) : List TypePart :=
  t.declaration :: t.extensions

/-- What the parts of a type contribute, each item with the file that it stands in. -/
def collect (t : SchemaType) (items : TypeDefinition → List α) : List (Nat × α) :=
  t.parts.flatMap fun part => (items part.definition).map fun item => (part.file, item)

def directives (t : SchemaType) : List Directive :=
  (t.collect TypeDefinition.directives).map (·.2)

def fields (t : SchemaType) : List (Nat × FieldDefinition) :=
  t.collect TypeDefinition.fields

def inputFields (t : SchemaType) : List (Nat × InputValueDefinition) :=
  t.collect TypeDefinition.inputFields

def values (t : SchemaType) : List (Nat × EnumValueDefinition) :=
  t.collect TypeDefinition.values

def members (t : SchemaType) : List (Nat × Name) :=
  t.collect TypeDefinition.members

def implements (t : SchemaType) : List (Nat × Name) :=
  t.collect TypeDefinition.implements

end SchemaType

structure Schema where
  sources : Sources
  types : List SchemaType
  roots : List (OperationKind × String)
  directives : List (Nat × DirectiveDefinition)
  deriving Repr, Inhabited

def findType? (types : List SchemaType) (name : String) : Option SchemaType :=
  types.find? (·.name == name)

/-- The kind of the type with a name, declared or known without declaration. -/
def kindOf? (types : List SchemaType) (name : String) : Option TypeKind :=
  if isBuiltinScalar name then some .scalar else (findType? types name).map SchemaType.kind

namespace Schema

def type? (s : Schema) (name : String) : Option SchemaType :=
  findType? s.types name

def kind? (s : Schema) (name : String) : Option TypeKind :=
  kindOf? s.types name

def root? (s : Schema) (operation : OperationKind) : Option SchemaType :=
  (s.roots.lookup operation).bind s.type?

def isRoot (s : Schema) (name : String) : Bool :=
  s.roots.any (·.2 == name)

end Schema

end SchemaBindings
