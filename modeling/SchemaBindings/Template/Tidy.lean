import SchemaBindings.Text.Lines

namespace SchemaBindings.Template

open Text

def opensBlock (line : List Char) : Bool :=
  match line.getLast? with
  | some c => c == '\x7b' || c == '(' || c == '[' || c == ':'
  | none => false

def closesBlock (line : List Char) : Bool :=
  match trimStart line with
  | c :: _ => c == '\x7d' || c == ')' || c == ']'
  | [] => false

/-- Adds a line to those that are kept, the latest of which comes first. -/
def keepLine (kept : List (List Char)) (line : List Char) : List (List Char) :=
  let line := trimEnd line
  if line = [] then
    match kept with
    | [] => []
    | latest :: _ => if latest = [] ∨ opensBlock latest then kept else [] :: kept
  else
    match kept with
    | [] :: earlier => if closesBlock line then line :: earlier else line :: kept
    | _ => line :: kept

def keptLines (cs : List Char) : List (List Char) :=
  (((paragraphs cs).foldl keepLine []).dropWhile (· == [])).reverse

/-- Blanks at the ends of lines go; of blank lines that follow each other one stays, and none at the
start or the end of the text or of a block. -/
def tidy (cs : List Char) : List Char :=
  joinLines (keptLines cs) ++ ['\n']

end SchemaBindings.Template
