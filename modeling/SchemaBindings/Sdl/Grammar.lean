import SchemaBindings.Number.Reading
import SchemaBindings.Sdl.Document
import SchemaBindings.Sdl.Lexer
import SchemaBindings.Sdl.Parser
import SchemaBindings.Sdl.StringValue

namespace SchemaBindings.Sdl

namespace Grammar

open SchemaBindings.Sdl.Parser

def word : Parser String :=
  look fun c => .ofList c.text

/-- A name. What stands in its place is taken as the name's text, but not passed over. -/
def name : Parser Name := do
  let found ← look fun c => (⟨.ofList c.text, c.span⟩ : Name)
  if (← kind).isName then advance else unexpected "expected name"
  return found

def description? : Parser (Option Description) := do
  let value := match ← kind with
    | .string => some stringValue
    | .blockString => some blockStringValue
    | _ => none
  match value with
  | some decode =>
    let found ← look fun c => (⟨.ofList (decode c.text), c.span⟩ : Description)
    advance
    return some found
  | none => return none

def enclosed (opening closing : Punctuator) (items : Parser (List α)) : Parser (List α) := do
  if ← eat (.punctuator opening) then
    let found ← items
    expect (.punctuator closing)
    return found
  else return []

def upTo (closing : Punctuator) (item : Parser α) : Parser (List α) :=
  many (· != .punctuator closing) item

/-- Names with a separator between them and perhaps before the first. -/
def separatedNames (separator : Punctuator) : Parser (List Name) := do
  let _ ← eat (.punctuator separator)
  let first ← name
  let others ← many (· == .punctuator separator) do
    advance
    name
  return first :: others

def typeRefStep (inner : Parser TypeRef) : Parser TypeRef := do
  let start ← offset
  let base ←
    if ← eat (.punctuator .bracketOpen) then do
      let element ← inner
      expect (.punctuator .bracketClose)
      pure (.list element (← spanFrom start))
    else do
      let n ← name
      pure (.named n.text n.span)
  if ← eat (.punctuator .bang) then return .nonNull base (← spanFrom start)
  else return base

def typeRef : Parser TypeRef :=
  nested typeRefStep

/-- The whole number that a token spells, if it has at most 64 bits. -/
def wholeNumber? (text : List Char) : Option Int :=
  (signedDecimal? false text).filter isWord

/-- A value; `inner` reads the values inside it. Variables are faults where a value must be
constant. -/
def valueStep (constant : Bool) (inner : Parser Value) : Parser Value := do
  let start ← offset
  match ← kind with
  | .punctuator .dollar =>
    advance
    let n ← name
    if constant then
      report (.labelled .invalidSyntax "unexpected variable" (← spanFrom start)
        "default values must be constant")
    return .variableRef n
  | .int =>
    let found := wholeNumber? (← look Cursor.text)
    if found.isNone then unexpected "integer literal out of range"
    advance
    return .int (found.getD 0) (← spanFrom start)
  | .float =>
    let found := Double.parse? (← look Cursor.text)
    advance
    return .float (found.getD (.zero false)) (← spanFrom start)
  | .string =>
    let found := stringValue (← look Cursor.text)
    advance
    return .string (.ofList found) (← spanFrom start)
  | .blockString =>
    let found := blockStringValue (← look Cursor.text)
    advance
    return .string (.ofList found) (← spanFrom start)
  | .keyword .trueValue =>
    advance
    return .boolean true (← spanFrom start)
  | .keyword .falseValue =>
    advance
    return .boolean false (← spanFrom start)
  | .keyword .nullValue =>
    advance
    return .null (← spanFrom start)
  | .punctuator .bracketOpen =>
    let items ← enclosed .bracketOpen .bracketClose (upTo .bracketClose inner)
    return .list items (← spanFrom start)
  | .punctuator .braceOpen =>
    let fields ← enclosed .braceOpen .braceClose do
      upTo .braceClose do
        let n ← name
        expect (.punctuator .colon)
        return (n, ← inner)
    return .object fields (← spanFrom start)
  | k =>
    if k.isName then return .enum (← name)
    else
      unexpected "expected value"
      return .null (.empty start)

def value (constant : Bool) : Parser Value :=
  nested (valueStep constant)

def argument : Parser Argument := do
  let start ← offset
  let n ← name
  expect (.punctuator .colon)
  let v ← value false
  return ⟨n, v, ← spanFrom start⟩

def directive : Parser Directive := do
  let start ← offset
  advance
  let n ← name
  let arguments ← enclosed .parenOpen .parenClose (upTo .parenClose argument)
  return ⟨n, arguments, ← spanFrom start⟩

def directives : Parser (List Directive) :=
  many (· == .punctuator .at) directive

def inputValue : Parser InputValueDefinition := do
  let description ← description?
  let start ← offset
  let n ← name
  expect (.punctuator .colon)
  let type ← typeRef
  let defaultValue ←
    if ← eat (.punctuator .equals) then some <$> value true else pure none
  let directives ← directives
  return ⟨description, n, type, defaultValue, directives, ← spanFrom start⟩

def arguments : Parser (List InputValueDefinition) :=
  enclosed .parenOpen .parenClose (upTo .parenClose inputValue)

def field : Parser FieldDefinition := do
  let description ← description?
  let start ← offset
  let n ← name
  let arguments ← arguments
  expect (.punctuator .colon)
  let type ← typeRef
  let directives ← directives
  return ⟨description, n, arguments, type, directives, ← spanFrom start⟩

def fields : Parser (List FieldDefinition) :=
  enclosed .braceOpen .braceClose (upTo .braceClose field)

/-- Whether a keyword is a value and so no value of an enum. -/
def isValueKeyword : TokenKind → Bool
  | .keyword .trueValue | .keyword .falseValue | .keyword .nullValue => true
  | _ => false

def enumValue : Parser EnumValueDefinition := do
  let description ← description?
  let start ← offset
  if isValueKeyword (← kind) then
    unexpected "enum values cannot be `true`, `false` or `null`"
  let n ← name
  let directives ← directives
  return ⟨description, n, directives, ← spanFrom start⟩

def implements : Parser (List Name) := do
  if ← eat (.keyword .implements) then separatedNames .ampersand else return []

def typeRest (description : Option Description)
    (body : Parser (List Directive × TypeBody)) : Parser TypeDefinition := do
  let start ← offset
  advance
  let n ← name
  let (directives, body) ← body
  return ⟨description, n, directives, body, ← spanFrom start⟩

def objectBody : Parser (List Directive × TypeBody) := do
  let interfaces ← implements
  let directives ← directives
  return (directives, .object interfaces (← fields))

def interfaceBody : Parser (List Directive × TypeBody) := do
  let interfaces ← implements
  let directives ← directives
  return (directives, .interface interfaces (← fields))

def unionBody : Parser (List Directive × TypeBody) := do
  let directives ← directives
  let members ← if ← eat (.punctuator .equals) then separatedNames .pipe else pure []
  return (directives, .union members)

def enumBody : Parser (List Directive × TypeBody) := do
  let directives ← directives
  return (directives, .enum (← enclosed .braceOpen .braceClose (upTo .braceClose enumValue)))

def inputBody : Parser (List Directive × TypeBody) := do
  let directives ← directives
  return (directives, .input (← enclosed .braceOpen .braceClose (upTo .braceClose inputValue)))

def scalarBody : Parser (List Directive × TypeBody) := do
  return (← directives, .scalar)

def typeDefinition? (description : Option Description) : Parser (Option TypeDefinition) := do
  match ← kind with
  | .keyword .type => some <$> typeRest description objectBody
  | .keyword .interface => some <$> typeRest description interfaceBody
  | .keyword .union => some <$> typeRest description unionBody
  | .keyword .enum => some <$> typeRest description enumBody
  | .keyword .input => some <$> typeRest description inputBody
  | .keyword .scalar => some <$> typeRest description scalarBody
  | _ => return none

def operationKind? : TokenKind → Option OperationKind
  | .keyword .query => some .query
  | .keyword .mutation => some .mutation
  | .keyword .subscription => some .subscription
  | _ => none

def operationType? : Parser (Option OperationType) := do
  let start ← offset
  match operationKind? (← kind) with
  | none =>
    unexpected "expected operation type"
    advance
    return none
  | some operation =>
    advance
    expect (.punctuator .colon)
    let n ← name
    return some ⟨operation, n, ← spanFrom start⟩

def schema (description : Option Description) : Parser SchemaDefinition := do
  let start ← offset
  advance
  let directives ← directives
  let operations ← enclosed .braceOpen .braceClose (upTo .braceClose operationType?)
  return ⟨description, directives, operations.filterMap id, ← spanFrom start⟩

def location? : Parser (Option DirectiveLocation) := do
  match DirectiveLocation.ofText? (← word) with
  | some l =>
    advance
    return some l
  | none =>
    unexpected "expected directive location"
    return none

def locations : Parser (List DirectiveLocation) := do
  let _ ← eat (.punctuator .pipe)
  match ← location? with
  | none => return []
  | some first =>
    let others ← collect do
      if ← eat (.punctuator .pipe) then location? else return none
    return first :: others

def directiveDefinition (description : Option Description) : Parser DirectiveDefinition := do
  let start ← offset
  advance
  expect (.punctuator .at)
  let n ← name
  let arguments ← arguments
  let repeatable ← eat (.keyword .repeatable)
  expect (.keyword .on)
  let locations ← locations
  return ⟨description, n, arguments, repeatable, locations, ← spanFrom start⟩

def extension? : Parser (Option Definition) := do
  let start ← offset
  advance
  if (← kind) = .keyword .schema then
    let d ← schema none
    return some (.schemaExtension { d with span := ← spanFrom start })
  else match ← typeDefinition? none with
    | some d => return some (.typeExtension { d with span := ⟨start, d.span.stop⟩ })
    | none =>
      unexpected "expected a type kind after `extend`"
      return none

def definition? : Parser (Option Definition) := do
  let description ← description?
  match ← kind with
  | .keyword .schema => return some (.schema (← schema description))
  | .keyword .directive => return some (.directive (← directiveDefinition description))
  | .keyword .extend =>
    if let some d := description then
      report (.labelled .invalidSyntax "unexpected description" d.span
        "extensions cannot carry a description")
    extension?
  | _ =>
    match ← typeDefinition? description with
    | some d => return some (.type d)
    | none =>
      unexpected "expected a type system definition"
      return none

def startsDefinition : TokenKind → Bool
  | .keyword k =>
    k ∈ [.schema, .scalar, .type, .interface, .union, .enum, .input, .directive, .extend]
  | .string | .blockString => true
  | _ => false

/-- A definition. Tokens that are none are passed over up to the next one that may start one. -/
def definitionOrSkip : Parser (Option Definition) := do
  match ← progress definition? with
  | some d => return some d
  | none =>
    let _ ← many (fun k => !startsDefinition k) (pure ())
    return none

def document : Parser Document := do
  let start ← offset
  let definitions ← many (fun _ => true) definitionOrSkip
  let stop ← look (·.span.stop)
  return ⟨definitions.filterMap id, ⟨start, stop⟩⟩

end Grammar

structure Parsed where
  document : Document
  diagnostics : List Diagnostic
  deriving Repr, Inhabited

/-- Reads a text. A text that ends inside an escape of a string cannot be read at all. -/
def Document.parse? (text : List Char) : Option Parsed :=
  if endsInEscape text then none
  else
    let (document, c) := Grammar.document.run (.start (tokens text) (endOffset text))
    some ⟨document, c.diagnostics.toList⟩

end SchemaBindings.Sdl
