import SchemaBindings.Sdl.Token

namespace SchemaBindings.Sdl

open Text

/-- What a text begins with: a token of a kind or, without a kind, something that separates tokens.
It consists of the first character and `more` further ones. -/
structure Scan where
  kind : Option TokenKind
  more : Nat
  deriving Repr, DecidableEq

def isLineEnd (c : Char) : Bool :=
  c == '\n' || c == '\r'

def isSeparator (c : Char) : Bool :=
  c == ' ' || c == '\t' || isLineEnd c || c == ',' || c == '\ufeff'

def isNameStart (c : Char) : Bool :=
  c.isAlpha || c == '_'

def isNameChar (c : Char) : Bool :=
  c.isAlphanum || c == '_'

def countWhile (p : Char → Bool) (cs : List Char) : Nat :=
  (cs.takeWhile p).length

/-- The rest of a string after its opening quote. A backslash takes the next character with it,
whatever it is; a line end leaves the string open. -/
def scanString : List Char → Scan
  | [] => ⟨some .invalid, 0⟩
  | ['\\'] => ⟨some .cutEscape, 1⟩
  | '\\' :: _ :: cs =>
    let rest := scanString cs
    ⟨rest.kind, rest.more + 2⟩
  | c :: cs =>
    if c == '"' then ⟨some .string, 1⟩
    else if isLineEnd c then ⟨some .invalid, 0⟩
    else
      let rest := scanString cs
      ⟨rest.kind, rest.more + 1⟩

/-- The rest of a block string after its three opening quotes. Three quotes close it unless a
backslash stands before them. -/
def scanBlockString : List Char → Scan
  | [] => ⟨some .invalid, 0⟩
  | '"' :: '"' :: '"' :: _ => ⟨some .blockString, 3⟩
  | '\\' :: '"' :: '"' :: '"' :: cs =>
    let rest := scanBlockString cs
    ⟨rest.kind, rest.more + 4⟩
  | _ :: cs =>
    let rest := scanBlockString cs
    ⟨rest.kind, rest.more + 1⟩

def fractionLength : List Char → Nat
  | '.' :: cs => if countWhile Char.isDigit cs = 0 then 0 else 1 + countWhile Char.isDigit cs
  | _ => 0

def exponentMarkLength : List Char → Nat
  | c :: cs =>
    if c == 'e' || c == 'E' then
      match cs with
      | '+' :: _ | '-' :: _ => 2
      | _ => 1
    else 0
  | [] => 0

/-- The rest of a number after its first character, a digit or a minus sign. A number ends where no
letter, underscore or point follows. -/
def scanNumber (first : Char) (cs : List Char) : Scan :=
  let whole := countWhile Char.isDigit cs
  if first == '-' && whole == 0 then ⟨some .invalid, 0⟩
  else
    let fraction := fractionLength (cs.drop whole)
    let mark := exponentMarkLength (cs.drop (whole + fraction))
    let digits :=
      if mark = 0 then 0 else countWhile Char.isDigit (cs.drop (whole + fraction + mark))
    let length := whole + fraction + mark + digits
    if mark ≠ 0 ∧ digits = 0 then ⟨some .invalid, length⟩
    else match cs.drop length with
      | c :: _ =>
        if c.isAlpha || c == '_' || c == '.' then ⟨some .invalid, length⟩
        else ⟨some (if fraction + mark = 0 then .int else .float), length⟩
      | [] => ⟨some (if fraction + mark = 0 then .int else .float), length⟩

def scanName (first : Char) (cs : List Char) : Scan :=
  let tail := cs.takeWhile isNameChar
  match Keyword.ofText? (.ofList (first :: tail)) with
  | some k => ⟨some (.keyword k), tail.length⟩
  | none => ⟨some .name, tail.length⟩

def scan (c : Char) (cs : List Char) : Scan :=
  if isSeparator c then ⟨none, 0⟩
  else if c == '#' then ⟨none, countWhile (fun d => !isLineEnd d) cs⟩
  else if c == '"' then
    match cs with
    | '"' :: '"' :: rest =>
      let body := scanBlockString rest
      ⟨body.kind, body.more + 2⟩
    | _ => scanString cs
  else if c == '-' || c.isDigit then scanNumber c cs
  else if isNameStart c then scanName c cs
  else match Punctuator.ofChar? c with
    | some p => ⟨some (.punctuator p), 0⟩
    | none =>
      match c, cs with
      | '.', '.' :: '.' :: _ => ⟨some (.punctuator .spread), 2⟩
      | _, _ => ⟨some .invalid, 0⟩

/-- The token of a kind at `offset`. A string that ends inside an escape reaches one byte past the
input, so it covers no text. -/
def Token.of (kind : TokenKind) (offset : Nat) (text : List Char) : Token :=
  match kind with
  | .cutEscape => ⟨.cutEscape, ⟨offset, offset + byteLength text + 1⟩, []⟩
  | kind => ⟨kind, ⟨offset, offset + byteLength text⟩, text⟩

/-- The tokens of a text whose first `skip` characters belong to what was scanned before. -/
def tokensFrom : (skip offset : Nat) → List Char → List Token
  | _, _, [] => []
  | skip + 1, offset, c :: cs => tokensFrom skip (offset + c.utf8Size) cs
  | 0, offset, c :: cs =>
    let found := scan c cs
    let rest := tokensFrom found.more (offset + c.utf8Size) cs
    match found.kind with
    | none => rest
    | some kind => .of kind offset (c :: cs.take found.more) :: rest

def tokens (cs : List Char) : List Token :=
  tokensFrom 0 0 cs

def endsInEscape (cs : List Char) : Bool :=
  (tokens cs).any fun t => t.kind == .cutEscape

def endOffset (cs : List Char) : Nat :=
  if endsInEscape cs then byteLength cs + 1 else byteLength cs

def tokenize (cs : List Char) : List Token :=
  tokens cs ++ [⟨.endOfInput, .empty (endOffset cs), []⟩]

end SchemaBindings.Sdl
