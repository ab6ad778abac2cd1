
namespace SchemaBindings

/-- How a language writes text literals. -/
structure Quoting where
  delimiter : Char
  /-- Whether a dollar sign starts an interpolation. -/
  dollar : Bool
  deriving Repr, DecidableEq

namespace Quoting

def escapeChar (q : Quoting) (c : Char) : List Char :=
  if c = '\\' then ['\\', '\\']
  else if c = '\n' then ['\\', 'n']
  else if c = '\r' then ['\\', 'r']
  else if c = '\t' then ['\\', 't']
  else if c = '$' ∧ q.dollar then ['\\', '$']
  else if c = q.delimiter then ['\\', c]
  else [c]

def body (q : Quoting) (cs : List Char) : List Char :=
  cs.flatMap q.escapeChar

def quote (q : Quoting) (cs : List Char) : List Char :=
  q.delimiter :: q.body cs ++ [q.delimiter]

end Quoting

end SchemaBindings
