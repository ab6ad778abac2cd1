import SchemaBindings.KeyedList

namespace SchemaBindings

def builtinScalars : List String :=
  ["Int", "Float", "String", "Boolean", "ID"]

def isBuiltinScalar (name : String) : Bool :=
  builtinScalars.contains name

structure NameTable where
  names : List String
  numbers : List (String × Nat)
  deriving Repr, DecidableEq

namespace NameTable

/-- The number that goes with a position. Numbers have 32 bits. -/
def numberAt (position : Nat) : Nat :=
  position % UInt32.size

def lookup (t : NameTable) (name : String) : Option Nat :=
  t.numbers.lookup name

def add (t : NameTable) (name : String) : NameTable :=
  ⟨t.names ++ [name], KeyedList.put t.numbers name (numberAt t.names.length)⟩

def intern (t : NameTable) (name : String) : Nat × NameTable :=
  match t.lookup name with
  | some number => (number, t)
  | none => (numberAt t.names.length, t.add name)

/-- The names that every schema knows. -/
def registered : List String :=
  builtinScalars ++ ["Query", "Mutation", "Subscription", "deprecated", "reason"]

def initial : NameTable :=
  registered.foldl (fun t name => (t.intern name).2) ⟨[], []⟩

def get (t : NameTable) (number : Nat) : String :=
  t.names.getD number ""

def isBuiltin (number : Nat) : Bool :=
  number < builtinScalars.length

end NameTable

end SchemaBindings
