
namespace SchemaBindings.Model

inductive NamedKind where
  | scalar
  | enum
  | object
  | interface
  | input
  | union
  deriving Repr, DecidableEq, Inhabited

def NamedKind.all : List NamedKind :=
  [.scalar, .enum, .object, .interface, .input, .union]

def NamedKind.text : NamedKind → String
  | scalar => "scalar"
  | enum => "enum"
  | object => "object"
  | interface => "interface"
  | input => "input"
  | union => "union"

structure NamedType where
  name : String
  kind : NamedKind
  deriving Repr, DecidableEq, Inhabited

/-- A type admits null unless it is marked as non-null; lists say so on every level. -/
inductive TypeExpr where
  /-- A scalar type that needs no declaration. -/
  | scalar (name : String)
  | named (type : NamedType)
  | list (element : TypeExpr)
  | nonNull (inner : TypeExpr)
  deriving Repr, DecidableEq, Inhabited

namespace TypeExpr

/-- The type without null. A type that is non-null already stays as it is. -/
def require : TypeExpr → TypeExpr
  | nonNull t => nonNull t
  | t => nonNull t

def isRequired : TypeExpr → Bool
  | nonNull _ => true
  | _ => false

/-- The type without its outermost non-null mark. -/
def optional : TypeExpr → TypeExpr
  | nonNull t => t
  | t => t

def isList (t : TypeExpr) : Bool :=
  match t.optional with
  | list _ => true
  | _ => false

/-- The type inside the outermost list or non-null mark. -/
def inner? : TypeExpr → Option TypeExpr
  | list t | nonNull t => some t
  | _ => none

def name : TypeExpr → String
  | scalar n => n
  | named t => t.name
  | list t | nonNull t => t.name

def named? : TypeExpr → Option NamedType
  | scalar _ => none
  | named t => some t
  | list t | nonNull t => t.named?

def listDepth : TypeExpr → Nat
  | scalar _ | named _ => 0
  | list t => t.listDepth + 1
  | nonNull t => t.listDepth

def display : TypeExpr → String
  | scalar n => n
  | named t => t.name
  | list t => "[" ++ t.display ++ "]"
  | nonNull t => t.display ++ "!"

end TypeExpr

end SchemaBindings.Model
