import SchemaBindings.Target.TypeReference

namespace SchemaBindings.Target

open Model

variable (t : Target)

def itemType (type : TypeExpr) : TypeExpr :=
  match type.optional with
  | .list item => item
  | other => other

/-- The fields of an input type for which there is a value, with that value. -/
def givenFields (input : InputType) (given : List (String × α)) : List (Field × α) :=
  input.fields.filterMap fun field => (given.lookup field.name).map fun value => (field, value)

def writtenFields (fields : List (Field × (TypeExpr → Option String))) :
    Option (List (String × String)) :=
  fields.mapM fun field =>
    (field.2 field.1.type).map fun literal => (t.language.fieldName field.1.name, literal)

mutual

/-- There is none for an object where the language has none or where the type is replaced. -/
def literal? : Value → TypeExpr → Option String
  | .null, _ => some t.dialect.null
  | .int n, type =>
    if type.name = "Float" then some (t.dialect.float.text (.ofRatio (n < 0) n.natAbs 1))
    else some (toString n)
  | .float x, _ => some (t.dialect.float.text x)
  | .string s, _ => some (.ofList (t.dialect.textLiteral s.toList))
  | .boolean b, _ => some (if b then "true" else "false")
  | .enum name, type =>
    some (t.dialect.caseLiteral (t.language.typeName type.name) (t.language.caseName name))
  | .list items, type => (literals? items (itemType type)).map t.dialect.listLiteral
  | .object fields, type =>
    let given := fieldLiterals fields
    type.named?.bind fun named =>
      if (t.customInput? named.name).isSome then none
      else (t.model.input? named.name).bind fun input =>
        (t.writtenFields (givenFields input given)).bind fun literals =>
          t.dialect.objectLiteral? (t.namedType named) literals

def literals? : List Value → TypeExpr → Option (List String)
  | [], _ => some []
  | item :: items, type =>
    (literal? item type).bind fun literal => (literals? items type).map (literal :: ·)

/-- What the value of each field is written as, whatever its type. -/
def fieldLiterals : List (String × Value) → List (String × (TypeExpr → Option String))
  | [] => []
  | (name, value) :: fields => (name, literal? value) :: fieldLiterals fields

end

end SchemaBindings.Target
