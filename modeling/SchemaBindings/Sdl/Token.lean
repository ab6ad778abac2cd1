import SchemaBindings.Source.Span

namespace SchemaBindings.Sdl

/-- Words with a meaning of their own. Each of them is a name as well wherever a name may stand. -/
inductive Keyword where
  | type
  | interface
  | union
  | enum
  | input
  | scalar
  | schema
  | extend
  | implements
  | directive
  | repeatable
  | on
  | query
  | mutation
  | subscription
  | trueValue
  | falseValue
  | nullValue
  deriving Repr, DecidableEq

namespace Keyword

def all : List Keyword :=
  [.type, .interface, .union, .enum, .input, .scalar, .schema, .extend, .implements, .directive,
    .repeatable, .on, .query, .mutation, .subscription, .trueValue, .falseValue, .nullValue]

def text : Keyword → String
  | type => "type"
  | interface => "interface"
  | union => "union"
  | enum => "enum"
  | input => "input"
  | scalar => "scalar"
  | schema => "schema"
  | extend => "extend"
  | implements => "implements"
  | directive => "directive"
  | repeatable => "repeatable"
  | on => "on"
  | query => "query"
  | mutation => "mutation"
  | subscription => "subscription"
  | trueValue => "true"
  | falseValue => "false"
  | nullValue => "null"

def ofText? (word : String) : Option Keyword :=
  all.find? fun k => k.text == word

theorem ofText?_text (k : Keyword) : ofText? k.text = some k := by
  cases k <;> decide

end Keyword

inductive Punctuator where
  | braceOpen
  | braceClose
  | parenOpen
  | parenClose
  | bracketOpen
  | bracketClose
  | colon
  | equals
  | pipe
  | ampersand
  | at
  | bang
  | dollar
  | spread
  deriving Repr, DecidableEq

namespace Punctuator

def text : Punctuator → String
  | braceOpen => "\x7b"
  | braceClose => "\x7d"
  | parenOpen => "("
  | parenClose => ")"
  | bracketOpen => "["
  | bracketClose => "]"
  | colon => ":"
  | equals => "="
  | pipe => "|"
  | ampersand => "&"
  | «at» => "@"
  | bang => "!"
  | dollar => "$"
  | spread => "..."

def ofChar? : Char → Option Punctuator
  | '\x7b' => some braceOpen
  | '\x7d' => some braceClose
  | '(' => some parenOpen
  | ')' => some parenClose
  | '[' => some bracketOpen
  | ']' => some bracketClose
  | ':' => some colon
  | '=' => some equals
  | '|' => some pipe
  | '&' => some ampersand
  | '@' => some «at»
  | '!' => some bang
  | '$' => some dollar
  | _ => none

end Punctuator

inductive TokenKind where
  | endOfInput
  /-- Characters that begin no token, a malformed number or a string that is never closed. -/
  | invalid
  /-- A string at the end of the input whose last character is the backslash of an escape. -/
  | cutEscape
  | name
  | int
  | float
  | string
  | blockString
  | keyword (k : Keyword)
  | punctuator (p : Punctuator)
  deriving Repr, DecidableEq

namespace TokenKind

def display : TokenKind → String
  | endOfInput => "<eof>"
  | invalid | cutEscape => "<error>"
  | name => "<name>"
  | int => "<int>"
  | float => "<float>"
  | string => "<string>"
  | blockString => "<block-string>"
  | keyword k => k.text
  | punctuator p => p.text

def isKeyword : TokenKind → Bool
  | keyword _ => true
  | _ => false

/-- Whether a token of this kind can stand where a name is expected. -/
def isName : TokenKind → Bool
  | name | keyword _ => true
  | _ => false

def isFault : TokenKind → Bool
  | invalid | cutEscape => true
  | _ => false

end TokenKind

structure Token where
  kind : TokenKind
  span : Span
  text : List Char
  deriving Repr, DecidableEq

end SchemaBindings.Sdl
