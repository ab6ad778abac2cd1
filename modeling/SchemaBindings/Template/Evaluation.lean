import SchemaBindings.Json.Writer
import SchemaBindings.KeyedList
import SchemaBindings.Template.Basic

namespace SchemaBindings

namespace Json

/-- A list that holds nothing, null, no, zero and the empty text do not hold; neither do numbers too
small for full precision. -/
def holds : Json → Bool
  | null => false
  | bool b => b
  | int n => n != 0
  | float x => x.isNormal
  | string s => s != ""
  | array items => !items.isEmpty
  | object members => !members.isEmpty

def plainText : Json → List Char
  | null => []
  | string s => s.toList
  | array items => '[' :: (itemTexts items ++ [']'])
  | object _ => "[object]".toList
  | scalar => scalarText scalar
where
  itemTexts : List Json → List Char
    | [] => []
    | [j] => plainText j
    | j :: js => plainText j ++ ',' :: ' ' :: itemTexts js

/-- The items over which a value is repeated: those of a list, or the members of an object in the
order of their keys. -/
def repeated? : Json → Option (List Json)
  | array items => some items
  | object members => some ((KeyedList.sorted members).map (·.2))
  | _ => none

/-- The part of a value under keys, one inside the other. It may be missing; looking for it fails in
a list, which has no keys. -/
def partAt? : List String → Json → Option (Option Json)
  | [], j => some (some j)
  | _ :: _, array _ => none
  | key :: keys, j =>
    match j.member? key with
    | some inner => partAt? keys inner
    | none => some none

end Json

namespace Template

variable {Op : Type}

structure Frame where
  node : Json
  isLast : Option Bool

abbrev Scope := List Frame

def Scope.root (node : Json) : Scope :=
  [⟨node, none⟩]

def Scope.items (scope : Scope) : List Json → List Scope
  | [] => []
  | [j] => [⟨j, some true⟩ :: scope]
  | j :: js => (⟨j, some false⟩ :: scope) :: Scope.items scope js

def Scope.lookup (scope : Scope) (outer : Nat) (keys : List String) : Option (Option Json) :=
  match scope[outer]? with
  | some frame => frame.node.partAt? keys
  | none => some none

/-- What operations compute from their arguments. An argument may be missing. -/
abbrev Operations (Op : Type) := Op → List (Option Json) → Option Json

variable (operations : Operations Op)

mutual

/-- The value of an expression: none where it fails, and a missing value where nothing is found. -/
def Expr.value? (scope : Scope) : Expr Op → Option (Option Json)
  | .path outer keys => scope.lookup outer keys
  | .isLast => some ((scope.head?.bind (·.isLast)).map .bool)
  | .text s => some (some (.string s))
  | .call op arguments =>
    (values? scope arguments).bind fun values => (operations op values).map some

def Expr.values? (scope : Scope) : List (Expr Op) → Option (List (Option Json))
  | [] => some []
  | e :: es => (e.value? scope).bind fun value => (values? scope es).map (value :: ·)

end

def Expr.holds? (scope : Scope) (e : Expr Op) : Option Bool :=
  (e.value? operations scope).map fun value => value.any Json.holds

mutual

/-- Writing fails where a value is not there, where there is nothing to repeat, and where an
operation fails. -/
def Piece.write? : Piece Op → Scope → Option (List Char)
  | .text s, _ => some s.toList
  | .value e, scope => (e.value? operations scope).bind fun value => value.map Json.plainText
  | .choice condition yes no, scope =>
    (condition.holds? operations scope).bind fun holds =>
      if holds then writeAll? yes scope else writeAll? no scope
  | .each list body none, scope =>
    (list.value? operations scope).bind fun value =>
      (value.bind Json.repeated?).bind fun items =>
        ((scope.items items).mapM fun inner => writeAll? body inner).map List.flatten
  | .each list body (some otherwise), scope =>
    (list.value? operations scope).bind fun value =>
      match value.bind Json.repeated? with
      | none | some [] => writeAll? otherwise scope
      | some items => ((scope.items items).mapM fun inner => writeAll? body inner).map List.flatten

def Piece.writeAll? : List (Piece Op) → Scope → Option (List Char)
  | [], _ => some []
  | piece :: pieces, scope =>
    (piece.write? scope).bind fun text => (writeAll? pieces scope).map (text ++ ·)

end

def write? (template : List (Piece Op)) (node : Json) : Option (List Char) :=
  Piece.writeAll? operations template (.root node)

end Template

end SchemaBindings
