import SchemaBindings.Source.Span
import SchemaBindings.Text.Lines

namespace SchemaBindings

open Text

/-- One line of a file. Only a line feed ends it; carriage returns before that are not part of its
text. -/
structure Line where
  number : Nat
  start : Nat
  text : List Char
  deriving Repr, DecidableEq

/-- Numbers the pieces of a text and gives each its offset; one byte stands between two pieces. -/
def Line.enumerate (number start : Nat) : List (List Char) → List Line
  | [] => []
  | piece :: pieces =>
    ⟨number, start, dropEndWhile (· == '\r') piece⟩ ::
      enumerate (number + 1) (start + byteLength piece + 1) pieces

def Line.ofText (text : String) : List Line :=
  enumerate 1 0 (splitLines text.toList)

structure SourceFile where
  name : String
  text : String
  lines : List Line
  lines_eq : lines = Line.ofText text
  deriving Repr, DecidableEq

namespace SourceFile

def ofText (name text : String) : SourceFile :=
  ⟨name, text, Line.ofText text, rfl⟩

instance : Inhabited SourceFile := ⟨ofText "" ""⟩

def chars (f : SourceFile) : List Char :=
  f.text.toList

/-- The last line that starts at or before `offset`. -/
def lineAt (f : SourceFile) (offset : Nat) : Line :=
  ((f.lines.takeWhile (·.start ≤ offset)).getLast?).getD ⟨1, 0, []⟩

def lineOf (f : SourceFile) (offset : Nat) : Nat :=
  (f.lineAt offset).number

/-- Both are counted from one, columns in bytes. -/
def lineColumn (f : SourceFile) (offset : Nat) : Nat × Nat :=
  let line := f.lineAt offset
  (line.number, offset - line.start + 1)

def lineText (f : SourceFile) (number : Nat) : List Char :=
  match f.lines.find? (·.number == number) with
  | some line => line.text
  | none => []

/-- Whether nothing but white space stands before `offset` on its line. -/
def opensLine (f : SourceFile) (offset : Nat) : Bool :=
  let line := f.lineAt offset
  match takeBytes? (offset - line.start) line.text with
  | some lead => allBlank lead
  | none => false

end SourceFile

abbrev Sources := List SourceFile

namespace Sources

/-- The file of index `i`; past the end there is only an empty file. -/
def file (sources : Sources) (i : Nat) : SourceFile :=
  sources.getD i default

def describe (sources : Sources) (location : Location) : String :=
  let f := sources.file location.file
  let (line, column) := f.lineColumn location.span.start
  s!"{f.name}:{line}:{column}"

end Sources

end SchemaBindings
