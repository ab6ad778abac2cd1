import SchemaBindings.Naming.Words

namespace SchemaBindings.Naming

open Text

/-- The lowercase form of a word. A sigma at its end takes its final form. -/
def lowerWord : List Char → List Char
  | [] => []
  | ['Σ'] => ['ς']
  | c :: cs => lowercase c ++ lowerWord cs

def upperWord (word : List Char) : List Char :=
  word.flatMap uppercase

def capitalWord : List Char → List Char
  | [] => []
  | c :: cs => uppercase c ++ lowerWord cs

/-- How a target language spells one kind of identifier. -/
inductive Style where
  | preserve
  | camel
  | pascal
  | snake
  | constant
  deriving Repr, DecidableEq

def Style.spell (style : Style) (cs : List Char) : List Char :=
  match style with
  | .preserve => cs
  | .camel =>
    match words cs with
    | [] => []
    | first :: others => lowerWord first ++ others.flatMap capitalWord
  | .pascal => (words cs).flatMap capitalWord
  | .snake => ['_'].intercalate ((words cs).map lowerWord)
  | .constant => ['_'].intercalate ((words cs).map upperWord)

def Style.apply (style : Style) (name : String) : String :=
  .ofList (style.spell name.toList)

end SchemaBindings.Naming
