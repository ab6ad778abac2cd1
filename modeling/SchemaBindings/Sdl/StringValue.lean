import SchemaBindings.Text.Bytes
import SchemaBindings.Text.Hex
import SchemaBindings.Text.Lines

namespace SchemaBindings.Sdl

open Text

/-- The text between `mark` at its start and `mark` at its end, or the whole text if it is not
enclosed that way. -/
def stripMarks (mark cs : List Char) : List Char :=
  if mark.isPrefixOf cs && mark.isSuffixOf (cs.drop mark.length) then
    (cs.drop mark.length).take (cs.length - 2 * mark.length)
  else cs

def hexNumber? : List Char → Option Nat
  | '+' :: cs => hexDigits? cs
  | cs => hexDigits? cs

/-- The character with a hexadecimal number, or the replacement character if there is none. -/
def hexChar (digits : List Char) : Char :=
  match hexNumber? digits with
  | some n => if n.isValidChar then Char.ofNat n else '\ufffd'
  | none => '\ufffd'

def escaped : Char → Char
  | 'n' => '\n'
  | 't' => '\t'
  | 'r' => '\r'
  | 'b' => Char.ofNat 0x08
  | 'f' => Char.ofNat 0x0C
  | c => c

/-- Resolves the escapes of a string. The letter `u` takes the next four characters, or as many as
there are. -/
def unescape : List Char → List Char
  | [] => []
  | ['\\'] => []
  | '\\' :: 'u' :: a :: b :: c :: d :: cs => hexChar [a, b, c, d] :: unescape cs
  | '\\' :: 'u' :: cs => [hexChar cs]
  | '\\' :: c :: cs => escaped c :: unescape cs
  | c :: cs => c :: unescape cs

def stringValue (raw : List Char) : List Char :=
  unescape (stripMarks ['"'] raw)

/-- Resolves the only escape of a block string, three quotes after a backslash. -/
def unescapeBlock : List Char → List Char
  | [] => []
  | '\\' :: '"' :: '"' :: '"' :: cs => '"' :: '"' :: '"' :: unescapeBlock cs
  | c :: cs => c :: unescapeBlock cs

def isIndent (c : Char) : Bool :=
  c == ' ' || c == '\t'

def indentation (line : List Char) : Nat :=
  (line.takeWhile isIndent).length

/-- The indentation that all lines share which are not blank, zero if all are. -/
def commonIndentation (lines : List (List Char)) : Nat :=
  (((lines.filter fun line => !allBlank line).map indentation).min?).getD 0

/-- A line without its first bytes; nothing is left where they end inside a character. -/
def dropIndentation (width : Nat) (line : List Char) : List Char :=
  (dropBytes? width line).getD []

/-- The lines without the common indentation. The first line follows the opening quotes, so it has
none. -/
def dedent : List (List Char) → List (List Char)
  | [] => []
  | first :: others => first :: others.map (dropIndentation (commonIndentation others))

def trimBlankLines (lines : List (List Char)) : List (List Char) :=
  ((lines.dropWhile allBlank).reverse.dropWhile allBlank).reverse

def blockStringValue (raw : List Char) : List Char :=
  let lines := splitLines (unescapeBlock (stripMarks ['"', '"', '"'] raw))
  joinLines (trimBlankLines (dedent (lines.map (dropEndWhile (· == '\r')))))

end SchemaBindings.Sdl
