import SchemaBindings.Number.Double
import SchemaBindings.Source.Span

namespace SchemaBindings.Sdl

structure Name where
  text : String
  span : Span
  deriving Repr, DecidableEq, Inhabited

/-- The text that describes a definition, with its escapes resolved. -/
structure Description where
  value : String
  span : Span
  deriving Repr, DecidableEq, Inhabited

inductive TypeRef where
  | named (name : String) (span : Span)
  | list (element : TypeRef) (span : Span)
  | nonNull (inner : TypeRef) (span : Span)
  deriving Repr, DecidableEq, Inhabited

namespace TypeRef

def span : TypeRef → Span
  | named _ s | list _ s | nonNull _ s => s

def name : TypeRef → String
  | named n _ => n
  | list t _ | nonNull t _ => t.name

def nameSpan : TypeRef → Span
  | named _ s => s
  | list t _ | nonNull t _ => t.nameSpan

def isNonNull : TypeRef → Bool
  | nonNull .. => true
  | _ => false

def display : TypeRef → String
  | named n _ => n
  | list t _ => "[" ++ t.display ++ "]"
  | nonNull t _ => t.display ++ "!"

end TypeRef

inductive Value where
  | variableRef (name : Name)
  | int (n : Int) (span : Span)
  | float (x : Double) (span : Span)
  | string (s : String) (span : Span)
  | boolean (b : Bool) (span : Span)
  | null (span : Span)
  | enum (name : Name)
  | list (items : List Value) (span : Span)
  | object (fields : List (Name × Value)) (span : Span)
  deriving Repr, Inhabited

def Value.span : Value → Span
  | variableRef n | enum n => n.span
  | int _ s | float _ s | string _ s | boolean _ s | null s | list _ s | object _ s => s

structure Argument where
  name : Name
  value : Value
  span : Span
  deriving Repr, Inhabited

structure Directive where
  name : Name
  arguments : List Argument
  span : Span
  deriving Repr, Inhabited

def Directive.argument? (d : Directive) (name : String) : Option Value :=
  (d.arguments.find? (·.name.text == name)).map (·.value)

def defaultDeprecation : String :=
  "No longer supported"

/-- The reason of the first deprecation among directives. -/
def deprecation? (directives : List Directive) : Option String :=
  (directives.find? (·.name.text == "deprecated")).map fun d =>
    match d.argument? "reason" with
    | some (.string reason _) => reason
    | _ => defaultDeprecation

/-- The offset at which a definition starts, its description included. -/
def startOf (description : Option Description) (span : Span) : Nat :=
  match description with
  | some d => min d.span.start span.start
  | none => span.start

structure InputValueDefinition where
  description : Option Description
  name : Name
  type : TypeRef
  defaultValue : Option Value
  directives : List Directive
  span : Span
  deriving Repr, Inhabited

def InputValueDefinition.start (d : InputValueDefinition) : Nat :=
  startOf d.description d.span

structure FieldDefinition where
  description : Option Description
  name : Name
  arguments : List InputValueDefinition
  type : TypeRef
  directives : List Directive
  span : Span
  deriving Repr, Inhabited

def FieldDefinition.start (d : FieldDefinition) : Nat :=
  startOf d.description d.span

structure EnumValueDefinition where
  description : Option Description
  name : Name
  directives : List Directive
  span : Span
  deriving Repr, Inhabited

def EnumValueDefinition.start (d : EnumValueDefinition) : Nat :=
  startOf d.description d.span

inductive TypeKind where
  | scalar
  | object
  | interface
  | union
  | enum
  | inputObject
  deriving Repr, DecidableEq, Inhabited

namespace TypeKind

def display : TypeKind → String
  | scalar => "scalar"
  | object => "object type"
  | interface => "interface"
  | union => "union"
  | enum => "enum"
  | inputObject => "input object"

def isInput : TypeKind → Bool
  | scalar | enum | inputObject => true
  | _ => false

def isOutput : TypeKind → Bool
  | inputObject => false
  | _ => true

end TypeKind

/-- What a definition says about a type of each kind. -/
inductive TypeBody where
  | scalar
  | object (implements : List Name) (fields : List FieldDefinition)
  | interface (implements : List Name) (fields : List FieldDefinition)
  | union (members : List Name)
  | enum (values : List EnumValueDefinition)
  | input (fields : List InputValueDefinition)
  deriving Repr, Inhabited

def TypeBody.kind : TypeBody → TypeKind
  | scalar => .scalar
  | object .. => .object
  | interface .. => .interface
  | union _ => .union
  | enum _ => .enum
  | input _ => .inputObject

structure TypeDefinition where
  description : Option Description
  name : Name
  directives : List Directive
  body : TypeBody
  span : Span
  deriving Repr, Inhabited

namespace TypeDefinition

def kind (d : TypeDefinition) : TypeKind :=
  d.body.kind

def start (d : TypeDefinition) : Nat :=
  startOf d.description d.span

def implements (d : TypeDefinition) : List Name :=
  match d.body with
  | .object names _ | .interface names _ => names
  | _ => []

def fields (d : TypeDefinition) : List FieldDefinition :=
  match d.body with
  | .object _ fields | .interface _ fields => fields
  | _ => []

def members (d : TypeDefinition) : List Name :=
  match d.body with
  | .union names => names
  | _ => []

def values (d : TypeDefinition) : List EnumValueDefinition :=
  match d.body with
  | .enum values => values
  | _ => []

def inputFields (d : TypeDefinition) : List InputValueDefinition :=
  match d.body with
  | .input fields => fields
  | _ => []

end TypeDefinition

inductive OperationKind where
  | query
  | mutation
  | subscription
  deriving Repr, DecidableEq, Inhabited

namespace OperationKind

def all : List OperationKind :=
  [.query, .mutation, .subscription]

def defaultTypeName : OperationKind → String
  | query => "Query"
  | mutation => "Mutation"
  | subscription => "Subscription"

end OperationKind

structure OperationType where
  operation : OperationKind
  typeName : Name
  span : Span
  deriving Repr, DecidableEq, Inhabited

structure SchemaDefinition where
  description : Option Description
  directives : List Directive
  operations : List OperationType
  span : Span
  deriving Repr, Inhabited

inductive DirectiveLocation where
  | schema
  | scalar
  | object
  | fieldDefinition
  | argumentDefinition
  | interface
  | union
  | enum
  | enumValue
  | inputObject
  | inputFieldDefinition
  | query
  | mutation
  | subscription
  | field
  | fragmentDefinition
  | fragmentSpread
  | inlineFragment
  | variableDefinition
  deriving Repr, DecidableEq, Inhabited

namespace DirectiveLocation

def all : List DirectiveLocation :=
  [.schema, .scalar, .object, .fieldDefinition, .argumentDefinition, .interface, .union, .enum,
    .enumValue, .inputObject, .inputFieldDefinition, .query, .mutation, .subscription, .field,
    .fragmentDefinition, .fragmentSpread, .inlineFragment, .variableDefinition]

def text : DirectiveLocation → String
  | schema => "SCHEMA"
  | scalar => "SCALAR"
  | object => "OBJECT"
  | fieldDefinition => "FIELD_DEFINITION"
  | argumentDefinition => "ARGUMENT_DEFINITION"
  | interface => "INTERFACE"
  | union => "UNION"
  | enum => "ENUM"
  | enumValue => "ENUM_VALUE"
  | inputObject => "INPUT_OBJECT"
  | inputFieldDefinition => "INPUT_FIELD_DEFINITION"
  | query => "QUERY"
  | mutation => "MUTATION"
  | subscription => "SUBSCRIPTION"
  | field => "FIELD"
  | fragmentDefinition => "FRAGMENT_DEFINITION"
  | fragmentSpread => "FRAGMENT_SPREAD"
  | inlineFragment => "INLINE_FRAGMENT"
  | variableDefinition => "VARIABLE_DEFINITION"

def ofText? (word : String) : Option DirectiveLocation :=
  all.find? fun l => l.text == word

theorem ofText?_text (l : DirectiveLocation) : ofText? l.text = some l := by
  cases l <;> decide

end DirectiveLocation

structure DirectiveDefinition where
  description : Option Description
  name : Name
  arguments : List InputValueDefinition
  repeatable : Bool
  locations : List DirectiveLocation
  span : Span
  deriving Repr, Inhabited

/-- What a document consists of. The span of an extension starts at the word `extend`. -/
inductive Definition where
  | schema (d : SchemaDefinition)
  | schemaExtension (d : SchemaDefinition)
  | type (d : TypeDefinition)
  | typeExtension (d : TypeDefinition)
  | directive (d : DirectiveDefinition)
  deriving Repr, Inhabited

structure Document where
  definitions : List Definition
  span : Span
  deriving Repr, Inhabited

end SchemaBindings.Sdl
