import SchemaBindings.Text.Lines

namespace SchemaBindings.Comment

open Text

/-- One line of a comment. A blank line gets the marker alone. -/
def line (indent marker cs : List Char) : List Char :=
  if allBlank cs then indent ++ marker ++ ['\n'] else indent ++ marker ++ ' ' :: cs ++ ['\n']

def lines (indent marker cs : List Char) : List Char :=
  (paragraphs cs).flatMap (line indent marker)

/-- The text with every `*/` broken up. -/
def breakEnds : List Char → List Char
  | '*' :: '/' :: cs => '*' :: '\\' :: '/' :: breakEnds cs
  | c :: cs => c :: breakEnds cs
  | [] => []

def block (indent cs : List Char) : List Char :=
  indent ++ ['/', '*', '*', '\n'] ++ lines indent [' ', '*'] (breakEnds cs) ++
    indent ++ [' ', '*', '/', '\n']

end SchemaBindings.Comment
