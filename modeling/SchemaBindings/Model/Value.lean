import SchemaBindings.Number.Layout
import SchemaBindings.Text.Quoted

namespace SchemaBindings.Model

inductive Value where
  | int (n : Int)
  | float (x : Double)
  | string (s : String)
  | boolean (b : Bool)
  | null
  | enum (name : String)
  | list (items : List Value)
  | object (fields : List (String × Value))
  deriving Repr, Inhabited

namespace Value

mutual

def display : Value → String
  | int n => toString n
  | float x => Layout.literal.text x
  | string s => Text.quoted s
  | boolean b => if b then "true" else "false"
  | null => "null"
  | enum name => name
  | list items => "[" ++ displayItems items ++ "]"
  | object fields => "\x7b" ++ displayFields fields ++ "\x7d"

def displayItems : List Value → String
  | [] => ""
  | [item] => item.display
  | item :: items => item.display ++ ", " ++ displayItems items

def displayFields : List (String × Value) → String
  | [] => ""
  | [(name, value)] => name ++ ": " ++ value.display
  | (name, value) :: fields => name ++ ": " ++ value.display ++ ", " ++ displayFields fields

end

end Value

end SchemaBindings.Model
