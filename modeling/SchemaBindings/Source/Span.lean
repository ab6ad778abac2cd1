import SchemaBindings.Text.Bytes

namespace SchemaBindings

/-- The bytes from `start` up to, but not including, `stop`. A text is taken to be shorter than
4 GiB, so that its offsets are numbers of 32 bits. -/
structure Span where
  start : Nat
  stop : Nat
  deriving Repr, DecidableEq, Inhabited

def Span.empty (offset : Nat) : Span :=
  ⟨offset, offset⟩

def Span.length (s : Span) : Nat :=
  s.stop - s.start

def Span.isEmpty (s : Span) : Bool :=
  s.start == s.stop

/-- The characters that a span covers, or none if it does not lie between characters of the text. -/
def Span.slice (s : Span) (text : List Char) : List Char :=
  (Text.sliceBytes? s.start s.stop text).getD []

structure Location where
  file : Nat
  span : Span
  deriving Repr, DecidableEq, Inhabited

def Span.inFile (s : Span) (file : Nat) : Location :=
  ⟨file, s⟩

end SchemaBindings
