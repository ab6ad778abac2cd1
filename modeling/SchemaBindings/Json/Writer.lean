import SchemaBindings.Json.Basic
import SchemaBindings.Number.Layout

namespace SchemaBindings.Json

def hexPair (n : Nat) : List Char :=
  [Nat.digitChar (n / 16 % 16), Nat.digitChar (n % 16)]

def escapeChar (c : Char) : List Char :=
  if c == '"' then ['\\', '"']
  else if c == '\\' then ['\\', '\\']
  else if c == '\n' then ['\\', 'n']
  else if c == '\r' then ['\\', 'r']
  else if c == '\t' then ['\\', 't']
  else if c.toNat == 0x08 then ['\\', 'b']
  else if c.toNat == 0x0C then ['\\', 'f']
  else if c.toNat < 0x20 then ['\\', 'u', '0', '0'] ++ hexPair c.toNat
  else [c]

def quoteText (s : String) : List Char :=
  '"' :: s.toList.flatMap escapeChar ++ ['"']

def numberText (x : Double) : List Char :=
  if x.isFinite then (Layout.json.text x).toList else "null".toList

def scalarText : Json → List Char
  | bool true => "true".toList
  | bool false => "false".toList
  | int n => (toString n).toList
  | float x => numberText x
  | string s => quoteText s
  | _ => "null".toList

mutual

/-- A value on one line, without blanks. -/
def writeCompact : Json → List Char
  | array [] => "[]".toList
  | array (item :: items) => '[' :: (writeCompact item ++ compactItems items)
  | object [] => ['\x7b', '\x7d']
  | object ((key, value) :: members) =>
    '\x7b' :: (quoteText key ++ ':' :: (writeCompact value ++ compactMembers members))
  | scalar => scalarText scalar

def compactItems : List Json → List Char
  | [] => [']']
  | item :: items => ',' :: (writeCompact item ++ compactItems items)

def compactMembers : List (String × Json) → List Char
  | [] => ['\x7d']
  | (key, value) :: members =>
    ',' :: (quoteText key ++ ':' :: (writeCompact value ++ compactMembers members))

end

/-- A line end and the indentation of a level, two blanks for each. -/
def freshLine (level : Nat) : List Char :=
  '\n' :: List.replicate (2 * level) ' '

mutual

def writePretty (level : Nat) : Json → List Char
  | array [] => "[]".toList
  | array (item :: items) =>
    '[' :: (freshLine (level + 1) ++ writePretty (level + 1) item ++ prettyItems level items)
  | object [] => ['\x7b', '\x7d']
  | object ((key, value) :: members) =>
    '\x7b' :: (freshLine (level + 1) ++ quoteText key ++ ": ".toList ++
      writePretty (level + 1) value ++ prettyMembers level members)
  | scalar => scalarText scalar

def prettyItems (level : Nat) : List Json → List Char
  | [] => freshLine level ++ [']']
  | item :: items =>
    ',' :: (freshLine (level + 1) ++ writePretty (level + 1) item ++ prettyItems level items)

def prettyMembers (level : Nat) : List (String × Json) → List Char
  | [] => freshLine level ++ ['\x7d']
  | (key, value) :: members =>
    ',' :: (freshLine (level + 1) ++ quoteText key ++ ": ".toList ++
      writePretty (level + 1) value ++ prettyMembers level members)

end

def compact (v : Json) : String :=
  .ofList (writeCompact v)

def pretty (v : Json) : String :=
  .ofList (writePretty 0 v)

end SchemaBindings.Json
