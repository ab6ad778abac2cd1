import SchemaBindings.Number.Double

namespace SchemaBindings

/-- A value as it is written: a key may occur in an object more than once. -/
inductive Json where
  | null
  | bool (b : Bool)
  | int (n : Int)
  | float (x : Double)
  | string (s : String)
  | array (items : List Json)
  | object (members : List (String × Json))
  deriving Repr, Inhabited

namespace Json

mutual

/-- Whether two values are written alike. -/
def same : Json → Json → Bool
  | null, null => true
  | bool a, bool b => a == b
  | int a, int b => a == b
  | float a, float b => a == b
  | string a, string b => a == b
  | array as, array bs => sameItems as bs
  | object as, object bs => sameMembers as bs
  | _, _ => false

def sameItems : List Json → List Json → Bool
  | [], [] => true
  | a :: as, b :: bs => same a b && sameItems as bs
  | _, _ => false

def sameMembers : List (String × Json) → List (String × Json) → Bool
  | [], [] => true
  | (k, a) :: as, (l, b) :: bs => k == l && same a b && sameMembers as bs
  | _, _ => false

end

instance : BEq Json := ⟨same⟩

/-- The member of an object with a key; where a key is repeated, the last one. -/
def member? (key : String) : Json → Option Json
  | object members => (members.reverse.find? (·.1 == key)).map (·.2)
  | _ => none

/-- A record with the given parts as an object. An array stands for its first parts, in order. -/
def asRecord? (parts : List String) : Json → Option Json
  | object members => some (object members)
  | array items =>
    if items.length ≤ parts.length then some (object (parts.zip items)) else none
  | _ => none

def text? : Json → Option String
  | string s => some s
  | _ => none

def items? : Json → Option (List Json)
  | array items => some items
  | _ => none

def ofText? : Option String → Json
  | some s => string s
  | none => null

def ofOption (f : α → Json) : Option α → Json
  | some a => f a
  | none => null

end Json

end SchemaBindings
