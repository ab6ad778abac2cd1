import SchemaBindings.Diagnostic
import SchemaBindings.Schema.Basic
import SchemaBindings.Sdl.Marker

namespace SchemaBindings

open Sdl

inductive SchemaFault where
  | secondSchema (first : Location)
  | repeatedRoot (operation : OperationKind)
  | rootNotObject (name : String) (kind : TypeKind)
  | unknownRoot (name : String)
  | emptyType (kind : TypeKind) (name : String)
  | unknownType (owner name : String)
  | notInputType (owner name : String) (kind : TypeKind)
  | notOutputType (owner name : String) (kind : TypeKind)
  | repeatedInterface (owner name : String)
  | unknownInterface (owner name : String)
  | notInterface (owner name : String) (kind : TypeKind)
  | repeatedField (owner : String)
  | repeatedArgument (owner : String)
  | repeatedInputField (owner : String)
  | repeatedMember (union name : String)
  | unknownMember (union name : String)
  | memberNotObject (union name : String) (kind : TypeKind)
  | repeatedEnumValue (enum name : String)
  | inputCycle (path : List String)
  deriving Repr, DecidableEq

namespace SchemaFault

def code : SchemaFault → FaultCode
  | secondSchema _ | repeatedRoot _ => .duplicateSchema
  | rootNotObject .. | notInputType .. | notOutputType .. | notInterface .. | memberNotObject .. =>
    .wrongTypeKind
  | unknownRoot _ | unknownType .. | unknownInterface .. | unknownMember .. => .undefinedType
  | emptyType .. => .emptyType
  | repeatedInterface .. | repeatedMember .. => .duplicateMember
  | repeatedField _ | repeatedInputField _ => .duplicateField
  | repeatedArgument _ => .duplicateArgument
  | repeatedEnumValue .. => .duplicateEnumValue
  | inputCycle _ => .inputCycle

def contentWord : TypeKind → String
  | .enum => "value"
  | .union => "member"
  | _ => "field"

def message (sources : Sources) : SchemaFault → String
  | secondSchema first => "a schema definition already exists at " ++ sources.describe first
  | repeatedRoot operation => operation.defaultTypeName ++ " root type is defined more than once"
  | rootNotObject name kind => s!"`{name}` is a {kind.display}"
  | unknownRoot name => s!"`{name}` is not defined"
  | emptyType kind name =>
    s!"{kind.display} `{name}` must declare at least one {contentWord kind}"
  | unknownType owner name => s!"`{owner}` refers to unknown type `{name}`"
  | notInputType owner name kind =>
    s!"`{owner}` must be an input type, but `{name}` is declared as {kind.display}"
  | notOutputType owner name kind =>
    s!"`{owner}` must be an output type, but `{name}` is declared as {kind.display}"
  | repeatedInterface owner name => s!"`{owner}` implements `{name}` more than once"
  | unknownInterface owner name => s!"`{owner}` implements unknown interface `{name}`"
  | notInterface owner name kind =>
    s!"`{owner}` implements `{name}`, which is declared as {kind.display}"
  | repeatedField owner => s!"field `{owner}` is declared more than once"
  | repeatedArgument owner => s!"argument `{owner}` is declared more than once"
  | repeatedInputField owner => s!"input field `{owner}` is declared more than once"
  | repeatedMember union name => s!"`{name}` appears more than once in union `{union}`"
  | unknownMember union name => s!"union `{union}` refers to unknown type `{name}`"
  | memberNotObject union name kind =>
    s!"union `{union}` includes `{name}`, which is declared as {kind.display}"
  | repeatedEnumValue enum name => s!"`{enum}.{name}` is declared more than once"
  | inputCycle path => "non-null input fields form a cycle: " ++ " -> ".intercalate path

def label (sources : Sources) : SchemaFault → String
  | secondSchema _ => "second schema definition"
  | repeatedRoot _ => "defined again here"
  | rootNotObject .. => "not an object type"
  | unknownRoot _ => "unknown type"
  | fault => fault.message sources

end SchemaFault

structure SchemaIssue where
  fault : SchemaFault
  location : Location
  deriving Repr, DecidableEq

/-- Why an extension cannot be merged. -/
inductive ExtensionFault where
  | otherKind (declared extended : TypeKind)
  | undeclared
  deriving Repr, DecidableEq

def ExtensionFault.reason : ExtensionFault → String
  | otherKind declared extended =>
    s!"declared as {declared.display} but extended as {extended.display}"
  | undeclared => "the type is not declared in any schema file"

/-- Why the files of a schema cannot be loaded. -/
inductive LoadError where
  | cutEscape
  | syntaxErrors (file : Nat) (diagnostics : List Diagnostic)
  /-- A type declared for the second time; the scalars known without declaration have no first
  place. -/
  | duplicateType (name : String) (first : Option Location) (second : Location)
  | invalidExtension (name : String) (fault : ExtensionFault) (location : Location)
  | invalid (issues : List SchemaIssue)
  | danglingMarker (kind : MarkerKind) (location : Location)
  | detachedMarker (kind : MarkerKind) (location : Location)
  deriving Repr

namespace LoadError

def firstDeclaration (sources : Sources) : Option Location → String
  | some location => sources.describe location
  | none => "built-in scalar"

def message (sources : Sources) : LoadError → String
  | cutEscape => "a file ends inside a string"
  | syntaxErrors file _ => s!"syntax error in `{(sources.file file).name}`"
  | duplicateType name _ _ => s!"type `{name}` is declared more than once"
  | invalidExtension name fault _ => s!"invalid extension of `{name}`: {fault.reason}"
  | invalid issues => s!"schema is invalid: {issues.length} error(s)"
  | danglingMarker kind location =>
    s!"marker `{kind.text}` at {sources.describe location} is not followed by any declaration"
  | detachedMarker kind location =>
    s!"marker `{kind.text}` at {sources.describe location} does not precede a type, " ++
      "field or enum value"

def help (sources : Sources) : LoadError → Option String
  | duplicateType name first _ =>
    some s!"`{name}` was first declared at {firstDeclaration sources first}"
  | danglingMarker .. => some "markers annotate the next declaration of the same file"
  | detachedMarker .. => some "place the marker directly above the declaration it annotates"
  | _ => none

def labels : LoadError → List Label
  | duplicateType _ _ second => [⟨second.span, "declared again here"⟩]
  | invalidExtension _ _ location => [⟨location.span, "extended here"⟩]
  | danglingMarker _ location => [⟨location.span, "dangling marker"⟩]
  | detachedMarker _ location => [⟨location.span, "this marker"⟩]
  | _ => []

end LoadError

end SchemaBindings
