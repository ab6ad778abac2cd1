import SchemaBindings.Model.Type
import SchemaBindings.Model.Value

namespace SchemaBindings.Model

/-- Whether a declaration is available everywhere. -/
inductive Status where
  | stable
  | future
  deriving Repr, DecidableEq, Inhabited

namespace Status

def text : Status → String
  | stable => "stable"
  | future => "future"

def isFuture (s : Status) : Bool :=
  s == .future

end Status

structure Argument where
  name : String
  type : TypeExpr
  defaultValue : Option Value
  description : Option String
  deprecation : Option String
  deriving Repr, Inhabited

structure Field where
  name : String
  type : TypeExpr
  arguments : List Argument
  defaultValue : Option Value
  description : Option String
  deprecation : Option String
  status : Status
  deriving Repr, Inhabited

structure EnumValue where
  name : String
  /-- The position among the declared values, counted from zero. -/
  ordinal : Nat
  description : Option String
  deprecation : Option String
  status : Status
  deriving Repr, DecidableEq, Inhabited

/-- An older name of an enum value, with the value's ordinal. -/
structure EnumAlias where
  name : String
  canonical : String
  ordinal : Nat
  deriving Repr, DecidableEq, Inhabited

structure EnumType where
  name : String
  description : Option String
  status : Status
  values : List EnumValue
  aliases : List EnumAlias
  deriving Repr, DecidableEq, Inhabited

def EnumType.value? (e : EnumType) (name : String) : Option EnumValue :=
  e.values.find? (·.name == name)

structure RecordType where
  name : String
  description : Option String
  status : Status
  implements : List String
  fields : List Field
  deriving Repr, Inhabited

structure InputType where
  name : String
  description : Option String
  status : Status
  fields : List Field
  deriving Repr, Inhabited

/-- How a schema expresses a union. -/
inductive UnionKind where
  /-- By listing its members. -/
  | native
  /-- By an object type of which one field is set at a time. -/
  | wrapper
  deriving Repr, DecidableEq, Inhabited

def UnionKind.text : UnionKind → String
  | native => "native"
  | wrapper => "wrapper"

/-- A case of a union. In a native union it is called like its type, in a wrapper like its field. -/
structure UnionMember where
  name : String
  typeName : String
  description : Option String
  deprecation : Option String
  status : Status
  deriving Repr, DecidableEq, Inhabited

structure UnionType where
  name : String
  description : Option String
  status : Status
  kind : UnionKind
  members : List UnionMember
  deriving Repr, DecidableEq, Inhabited

structure ScalarType where
  name : String
  description : Option String
  status : Status
  deriving Repr, DecidableEq, Inhabited

inductive OperationKind where
  | query
  | mutation
  | subscription
  deriving Repr, DecidableEq, Inhabited

namespace OperationKind

def all : List OperationKind :=
  [.query, .mutation, .subscription]

def text : OperationKind → String
  | query => "query"
  | mutation => "mutation"
  | subscription => "subscription"

end OperationKind

structure OperationField where
  name : String
  arguments : List Argument
  returnType : TypeExpr
  description : Option String
  deprecation : Option String
  status : Status
  deriving Repr, Inhabited

structure Operation where
  kind : OperationKind
  typeName : String
  fields : List OperationField
  deriving Repr, Inhabited

/-- The default of a field as a literal of each language, the languages in ascending order. -/
structure PlatformDefault where
  typeName : String
  fieldName : String
  values : List (String × String)
  deriving Repr, DecidableEq, Inhabited

structure Metadata where
  sources : List String
  generator : String
  version : String
  deriving Repr, DecidableEq, Inhabited

def Metadata.signed (sources : List String) : Metadata :=
  ⟨sources, "gqlbind", "0.1.0"⟩

end SchemaBindings.Model

namespace SchemaBindings

/-- What bindings are written from. All lists keep the order of declaration. -/
structure Model where
  metadata : Model.Metadata
  scalars : List Model.ScalarType
  enums : List Model.EnumType
  interfaces : List Model.RecordType
  objects : List Model.RecordType
  inputs : List Model.InputType
  unions : List Model.UnionType
  operations : List Model.Operation
  platformDefaults : List Model.PlatformDefault
  deriving Repr, Inhabited

namespace Model

def empty (metadata : Metadata) : Model :=
  ⟨metadata, [], [], [], [], [], [], [], []⟩

def enum? (m : Model) (name : String) : Option EnumType :=
  m.enums.find? (·.name == name)

def interface? (m : Model) (name : String) : Option RecordType :=
  m.interfaces.find? (·.name == name)

def object? (m : Model) (name : String) : Option RecordType :=
  m.objects.find? (·.name == name)

def input? (m : Model) (name : String) : Option InputType :=
  m.inputs.find? (·.name == name)

def union? (m : Model) (name : String) : Option UnionType :=
  m.unions.find? (·.name == name)

def platformDefault? (m : Model) (type field language : String) : Option String :=
  (m.platformDefaults.find? fun row => row.typeName == type && row.fieldName == field).bind
    (·.values.lookup language)

end Model

end SchemaBindings
