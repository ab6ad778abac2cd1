import SchemaBindings.Json.Reader
import SchemaBindings.KeyedList

namespace SchemaBindings

/-- A type that replaces an input type in one language. -/
structure CustomInput where
  typeName : String
  declaration : Option String
  deriving Repr, DecidableEq, Inhabited

/-- What a schema cannot say about its bindings. -/
structure Tables where
  /-- The enum that gets the older names. -/
  errorCodeEnum : String
  legacyAliases : List (String × List String)
  /-- Types with their fields, and these with a literal for each language. -/
  platformDefaults : List (String × List (String × List (String × String)))
  customInputs : List (String × List (String × CustomInput))
  deriving Repr, DecidableEq, Inhabited

namespace Tables

def empty : Tables :=
  ⟨"ErrorCode", [], [], []⟩

def isEmpty (t : Tables) : Bool :=
  t.legacyAliases.isEmpty && t.platformDefaults.isEmpty && t.customInputs.isEmpty

def customInput? (t : Tables) (input language : String) : Option CustomInput :=
  (t.customInputs.lookup input).bind (·.lookup language)

def readTexts (j : Json) : Option (List String) :=
  j.items?.bind (·.mapM Json.text?)

def readMembers (read : Json → Option α) : Json → Option (List (String × α))
  | .object members => members.mapM fun member => (read member.2).map fun a => (member.1, a)
  | _ => none

def readOrdered (read : Json → Option α) (j : Json) : Option (List (String × α)) :=
  (readMembers read j).map KeyedList.ofPairs

def readSorted (read : Json → Option α) (j : Json) : Option (List (String × α)) :=
  (readMembers read j).map KeyedList.sorted

/-- The parts of a record, of which every key is known and none is repeated. Parts that are not
written are none. -/
def readParts (keys : List String) (j : Json) : Option (List (Option Json)) :=
  match j.asRecord? keys with
  | some (.object members) =>
    if members.all (fun m => keys.contains m.1) && decide (members.map (·.1)).Nodup then
      some (keys.map fun key => members.lookup key)
    else none
  | _ => none

def readPart (missing : α) (read : Json → Option α) : Option Json → Option α
  | some j => read j
  | none => some missing

def readOptionalText : Json → Option (Option String)
  | .null => some none
  | j => j.text?.map some

def readCustomInput (j : Json) : Option CustomInput := do
  match ← readParts ["type_name", "declaration"] j with
  | [some name, declaration] =>
    let typeName ← Json.text? name
    let declaration ← readPart none readOptionalText declaration
    some ⟨typeName, declaration⟩
  | _ => none

def ofJson? (j : Json) : Option Tables := do
  let keys := ["error_code_enum", "error_code_legacy_aliases", "platform_type_defaults",
    "custom_input_types"]
  match ← readParts keys j with
  | [errorCodeEnum, aliases, defaults, inputs] =>
    let errorCodeEnum ← readPart empty.errorCodeEnum Json.text? errorCodeEnum
    let aliases ← readPart [] (readOrdered readTexts) aliases
    let defaults ← readPart [] (readOrdered (readOrdered (readSorted Json.text?))) defaults
    let inputs ← readPart [] (readOrdered (readSorted readCustomInput)) inputs
    some ⟨errorCodeEnum, aliases, defaults, inputs⟩
  | _ => none

def parse? (text : List Char) : Option Tables :=
  (Json.parse? text).bind ofJson?

def invalidMessage (name : String) : String :=
  s!"invalid tables in `{name}`"

def help : String :=
  "expected an object with error_code_enum, error_code_legacy_aliases, " ++
    "platform_type_defaults and custom_input_types"

end Tables

end SchemaBindings
