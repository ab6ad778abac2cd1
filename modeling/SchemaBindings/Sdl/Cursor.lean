import SchemaBindings.Diagnostic
import SchemaBindings.Sdl.Token

namespace SchemaBindings.Sdl

/-- What is left of the tokens, and what has been found on the way. Lexical faults are passed over,
so the current token is never one. -/
structure Cursor where
  upcoming : List Token
  endOffset : Nat
  /-- The end of the last token that was passed over. -/
  consumedTo : Nat
  diagnostics : Array Diagnostic
  deriving Repr

namespace Cursor

def atEnd (c : Cursor) : Bool :=
  c.upcoming.isEmpty

def kind (c : Cursor) : TokenKind :=
  match c.upcoming with
  | t :: _ => t.kind
  | [] => .endOfInput

/-- The span of the current token; at the end of the input it is empty. -/
def span (c : Cursor) : Span :=
  match c.upcoming with
  | t :: _ => t.span
  | [] => .empty c.endOffset

def text (c : Cursor) : List Char :=
  match c.upcoming with
  | t :: _ => t.text
  | [] => []

def found (c : Cursor) : String :=
  match c.upcoming with
  | t :: _ => "`" ++ .ofList t.text ++ "`"
  | [] => "end of file"

def report (c : Cursor) (d : Diagnostic) : Cursor :=
  { c with diagnostics := c.diagnostics.push d }

/-- How many faults are reported so far or stand as lexical ones after the current token. -/
def faultCount (c : Cursor) : Nat :=
  c.diagnostics.size + c.upcoming.tail.countP (·.kind.isFault)

end Cursor

/-- The diagnostic of a lexical fault. A string that is never closed has one of its own. -/
def Token.faultDiagnostic (t : Token) : Diagnostic :=
  if t.text.head? = some '"' then
    .labelled .unterminatedString "unterminated string" t.span "string is never closed"
  else
    .labelled .invalidSyntax "invalid token" t.span ("unexpected `" ++ .ofList t.text ++ "`")

namespace Cursor

def skipFaults (c : Cursor) : List Token → Cursor
  | [] => { c with upcoming := [] }
  | t :: ts =>
    if t.kind.isFault then
      skipFaults { c.report t.faultDiagnostic with consumedTo := t.span.stop } ts
    else { c with upcoming := t :: ts }

def advance (c : Cursor) : Cursor :=
  match c.upcoming with
  | [] => c
  | t :: ts => skipFaults { c with consumedTo := t.span.stop } ts

def start (tokens : List Token) (endOffset : Nat) : Cursor :=
  skipFaults ⟨[], endOffset, 0, #[]⟩ tokens

theorem upcoming_skipFaults_suffix (c : Cursor) (ts : List Token) :
    (c.skipFaults ts).upcoming <:+ ts := by
  induction ts generalizing c with
  | nil => simp [skipFaults]
  | cons t ts ih =>
    rw [skipFaults]
    split
    · exact (ih _).trans (List.suffix_cons t ts)
    · exact List.suffix_rfl

theorem upcoming_advance_suffix (c : Cursor) : c.advance.upcoming <:+ c.upcoming := by
  cases h : c.upcoming with
  | nil => simp [advance, h]
  | cons t ts =>
    simp only [advance, h]
    exact (upcoming_skipFaults_suffix _ ts).trans (List.suffix_cons t ts)

@[simp] theorem faultCount_report (c : Cursor) (d : Diagnostic) :
    (c.report d).faultCount = c.faultCount + 1 := by
  simp [faultCount, report]
  omega

theorem faultCount_skipFaults (c : Cursor) (ts : List Token) :
    (c.skipFaults ts).faultCount = c.diagnostics.size + ts.countP (·.kind.isFault) := by
  induction ts generalizing c with
  | nil => simp [skipFaults, faultCount]
  | cons t ts ih =>
    rw [skipFaults]
    split
    next ht =>
      rw [ih]
      simp [report, ht]
      omega
    next ht => simp [faultCount, ht]

theorem faultCount_advance (c : Cursor) : c.advance.faultCount = c.faultCount := by
  cases h : c.upcoming with
  | nil => simp [advance, h]
  | cons t ts =>
    simp only [advance, h, faultCount_skipFaults]
    simp [faultCount, h]

theorem length_upcoming_advance_lt {c : Cursor} (h : c.atEnd = false) :
    c.advance.upcoming.length < c.upcoming.length := by
  cases hu : c.upcoming with
  | nil => simp [atEnd, hu] at h
  | cons t ts =>
    simp only [advance, hu, List.length_cons]
    exact Nat.lt_succ_of_le (upcoming_skipFaults_suffix _ ts).length_le

end Cursor

end SchemaBindings.Sdl
