import SchemaBindings.Source.File
import SchemaBindings.Text.Alphanumeric

namespace SchemaBindings.Sdl

open Text

inductive MarkerKind where
  /-- The object type stands for a union of its fields. -/
  | union
  /-- The declaration is not available everywhere yet. -/
  | future
  deriving Repr, DecidableEq, Inhabited

def MarkerKind.text : MarkerKind → String
  | union => "=> Union"
  | future => "Future"

def afterWord? (word text : List Char) : Option (List Char) :=
  if (text.take word.length).map Char.toLower = word then some (text.drop word.length) else none

def startsWithWord (word text : List Char) : Bool :=
  match afterWord? word text with
  | none => false
  | some [] => true
  | some (c :: _) => !(isAlphanumeric c || c == '_')

def MarkerKind.ofComment? (body : List Char) : Option MarkerKind :=
  match trimStart body with
  | '=' :: '>' :: rest =>
    if startsWithWord "union".toList (trimStart rest) then some .union else none
  | rest => if startsWithWord "future".toList rest then some .future else none

/-- A marker fills a line of its own and concerns the declaration that opens the next line which is
neither blank nor a comment. -/
structure Marker where
  kind : MarkerKind
  file : Nat
  commentLine : Nat
  targetLine : Nat
  /-- The comment without the blanks before it. -/
  span : Span
  deriving Repr, DecidableEq, Inhabited

/-- A marker after which no declaration follows in its file. -/
structure DanglingMarker where
  kind : MarkerKind
  line : Nat
  span : Span
  deriving Repr, DecidableEq, Inhabited

/-- How often `mark` occurs in a text, without overlaps. -/
def occurrences (mark : List Char) : (skip : Nat) → List Char → Nat
  | _, [] => 0
  | skip + 1, _ :: cs => occurrences mark skip cs
  | 0, c :: cs =>
    if mark.isPrefixOf (c :: cs) then occurrences mark (mark.length - 1) cs + 1
    else occurrences mark 0 cs

/-- The part of a line before a blank and a number sign. -/
def beforeComment : List Char → List Char
  | [] => []
  | ' ' :: '#' :: _ => []
  | c :: cs => c :: beforeComment cs

/-- Whether a line opens a block string or closes the one it is in: it does if it holds an odd
number of triple quotes, those after a backslash not counted. -/
def togglesBlockString (line : List Char) : Bool :=
  let code := beforeComment line
  (occurrences ['"', '"', '"'] 0 code - occurrences ['\\', '"', '"', '"'] 0 code) % 2 == 1

structure MarkerScan where
  file : Nat
  inBlockString : Bool
  pending : List DanglingMarker
  found : List Marker
  deriving Repr, DecidableEq

namespace MarkerScan

/-- Gives the pending markers the line `target`. -/
def attach (s : MarkerScan) (target : Nat) : MarkerScan :=
  { s with
    pending := []
    found := s.found ++ s.pending.map fun m => ⟨m.kind, s.file, m.line, target, m.span⟩ }

def readComment (s : MarkerScan) (line : Line) (comment body : List Char) : MarkerScan :=
  match MarkerKind.ofComment? body with
  | none => s
  | some kind =>
    let start := line.start + (byteLength line.text - byteLength comment)
    let stop := line.start + byteLength line.text
    { s with pending := s.pending ++ [⟨kind, line.number, ⟨start, stop⟩⟩] }

def step (s : MarkerScan) (line : Line) : MarkerScan :=
  if s.inBlockString then
    { s with inBlockString := !togglesBlockString line.text }
  else match trimStart line.text with
    | [] => s
    | '#' :: body => s.readComment line ('#' :: body) body
    | _ => { s.attach line.number with inBlockString := togglesBlockString line.text }

end MarkerScan

/-- The markers of a file, or those of them that dangle if there are any. -/
def scanMarkers (file : Nat) (source : SourceFile) : Except (List DanglingMarker) (List Marker) :=
  let scan := source.lines.foldl MarkerScan.step ⟨file, false, [], []⟩
  if scan.pending.isEmpty then .ok scan.found else .error scan.pending

structure MarkerTable where
  markers : List Marker
  deriving Repr, DecidableEq, Inhabited

namespace MarkerTable

def get (t : MarkerTable) (file line : Nat) : List Marker :=
  t.markers.filter fun m => m.file == file && m.targetLine == line

/-- The markers for the declaration at `offset`. Only the declaration that opens a line has the
markers of that line. -/
def forDeclaration (t : MarkerTable) (file : Nat) (source : SourceFile) (offset : Nat) :
    List Marker :=
  if source.opensLine offset then t.get file (source.lineOf offset) else []

def has (t : MarkerTable) (file : Nat) (source : SourceFile) (offset : Nat) (kind : MarkerKind) :
    Bool :=
  (t.forDeclaration file source offset).any (·.kind == kind)

def lines (t : MarkerTable) : List (Nat × Nat) :=
  (t.markers.map fun m => (m.file, m.targetLine)).foldr
    (fun line rest => if rest.head? = some line then rest else line :: rest) []

end MarkerTable

end SchemaBindings.Sdl
