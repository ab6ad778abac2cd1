import SchemaBindings.Source.Span

namespace SchemaBindings

/-- The faults that have a code of their own. -/
inductive FaultCode where
  | unexpectedToken
  | unexpectedEnd
  | invalidSyntax
  | unterminatedString
  | undefinedType
  | duplicateType
  | duplicateField
  | duplicateEnumValue
  | invalidExtension
  | duplicateSchema
  | duplicateArgument
  | duplicateMember
  | emptyType
  | wrongTypeKind
  | inputCycle
  | danglingMarker
  | detachedMarker
  deriving Repr, DecidableEq, Inhabited

namespace FaultCode

def all : List FaultCode :=
  [.unexpectedToken, .unexpectedEnd, .invalidSyntax, .unterminatedString, .undefinedType,
    .duplicateType, .duplicateField, .duplicateEnumValue, .invalidExtension, .duplicateSchema,
    .duplicateArgument, .duplicateMember, .emptyType, .wrongTypeKind, .inputCycle, .danglingMarker,
    .detachedMarker]

def text : FaultCode → String
  | unexpectedToken => "E0001"
  | unexpectedEnd => "E0002"
  | invalidSyntax => "E0003"
  | unterminatedString => "E0004"
  | undefinedType => "E0010"
  | duplicateType => "E0012"
  | duplicateField => "E0013"
  | duplicateEnumValue => "E0014"
  | invalidExtension => "E0015"
  | duplicateSchema => "E0016"
  | duplicateArgument => "E0017"
  | duplicateMember => "E0018"
  | emptyType => "E0019"
  | wrongTypeKind => "E0020"
  | inputCycle => "E0021"
  | danglingMarker => "E0040"
  | detachedMarker => "E0041"

end FaultCode

structure Label where
  span : Span
  text : String
  deriving Repr, DecidableEq, Inhabited

structure Diagnostic where
  code : FaultCode
  title : String
  message : Option String
  file : Option Nat
  labels : List Label
  deriving Repr, DecidableEq, Inhabited

namespace Diagnostic

/-- A fault with a single label, in a file not yet known. -/
def labelled (code : FaultCode) (title : String) (span : Span) (text : String) : Diagnostic :=
  ⟨code, title, none, none, [⟨span, text⟩]⟩

def primarySpan (d : Diagnostic) : Option Span :=
  d.labels.head?.map (·.span)

/-- The diagnostic in `file`, unless it already belongs to a file. -/
def inFile (d : Diagnostic) (file : Nat) : Diagnostic :=
  { d with file := d.file.or (some file) }

/-- The message, or the title where there is none. -/
def summary (d : Diagnostic) : String :=
  d.message.getD d.title

def display (d : Diagnostic) : String :=
  let headline := "[" ++ d.code.text ++ "] " ++ d.title
  match d.message with
  | some message => headline ++ ": " ++ message
  | none => headline

end Diagnostic

end SchemaBindings
