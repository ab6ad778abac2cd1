import SchemaBindings.Model.Encoding
import SchemaBindings.Target.Literal
import SchemaBindings.Template.Evaluation

namespace SchemaBindings

/-- The operations of templates. -/
inductive TemplateOp where
  | type
  | typeName
  | fieldName
  | caseName
  | variantName
  | constant
  | quoted
  | doc (level : Nat)
  | deprecated (level : Nat)
  /-- The default of a field of a type: its own, or that of the tables. -/
  | fieldDefault
  | literal
  | isRequired
  | isInherited
  /-- The interfaces of a type and the unions with it as a member. -/
  | supertypes
  | join
  | isEqual
  deriving Repr, DecidableEq

namespace Target

open Model

variable (t : Target)

def futureNote : String :=
  "Future: not yet available on every platform."

def docText? (description : Option String) (isFuture : Bool) : Option String :=
  match description, isFuture with
  | none, false => none
  | some s, false => some s
  | none, true => some futureNote
  | some s, true => some (s ++ "\n\n" ++ futureNote)

/-- The default of a field, empty if it has none. -/
def fieldDefault (owner : String) (field : Field) : String :=
  match field.defaultValue.bind fun value => t.literal? value field.type with
  | some literal => literal
  | none => (t.model.platformDefault? owner field.name t.language.text).getD ""

def interfacesOf (owner : String) : List String :=
  match t.model.object? owner, t.model.interface? owner with
  | some object, _ => object.implements
  | none, some interface => interface.implements
  | none, none => []

def declares (interface field : String) : Bool :=
  (t.model.interface? interface).any fun i => i.fields.any (·.name == field)

def isInherited (owner field : String) : Bool :=
  (t.interfacesOf owner).any fun interface => t.declares interface field

/-- The unions that list an object type as a member. -/
def unionsOf (object : String) : List UnionType :=
  t.model.unions.filter fun u => u.kind == .native && u.members.any (·.typeName == object)

/-- The declared interfaces of an object type, then the unions that list it. -/
def supertypes (object : String) : List String :=
  ((t.interfacesOf object).filter fun name => (t.model.interface? name).isSome).map
      t.language.typeName ++
    (t.unionsOf object).map fun u => t.language.typeName u.name

def joinText : Json → String
  | .string s => s
  | other => other.compact

def spelled (spell : String → String) (name : Option Json) : Option Json :=
  (name.bind Json.text?).map fun s => .string (spell s)

def operations : Template.Operations TemplateOp
  | .type, [type] => (type.bind TypeExpr.ofJson?).map fun type => .string (t.typeText type)
  | .typeName, [name] => spelled t.language.typeName name
  | .fieldName, [name] => spelled t.language.fieldName name
  | .caseName, [name] => spelled t.language.caseName name
  | .variantName, [name] => spelled t.language.variantName name
  | .constant, [name] => spelled Naming.Style.constant.apply name
  | .quoted, [text] => spelled (fun s => .ofList (t.dialect.textLiteral s.toList)) text
  | .doc level, [description, status] =>
    let isFuture := (status.bind Json.text?) == some Status.future.text
    some (.string (match docText? (description.bind Json.text?) isFuture with
      | some s => .ofList (t.dialect.docComment (t.dialect.indentation level) s.toList)
      | none => ""))
  | .deprecated level, [reason] =>
    some (.string (match reason.bind Json.text? with
      | some s => .ofList (t.dialect.deprecated (t.dialect.indentation level) s.toList)
      | none => ""))
  | .fieldDefault, [owner, field] =>
    (owner.bind Json.text?).bind fun owner => (field.bind Field.ofJson?).map fun field =>
      .string (t.fieldDefault owner field)
  | .literal, [value, type] =>
    match value.getD .null with
    | .null => some (.string "")
    | value => (Value.ofJson? value).bind fun value => (type.bind TypeExpr.ofJson?).map fun type =>
      .string ((t.literal? value type).getD "")
  | .isRequired, [type] => (type.bind TypeExpr.ofJson?).map fun type => .bool type.isRequired
  | .isInherited, [owner, field] =>
    (owner.bind Json.text?).bind fun owner => (field.bind Json.text?).map fun field =>
      .bool (t.isInherited owner field)
  | .supertypes, [name] =>
    (name.bind Json.text?).map fun name => .array ((t.supertypes name).map .string)
  | .join, [list, separator] =>
    (separator.bind Json.text?).map fun separator =>
      .string (separator.intercalate (((list.bind Json.items?).getD []).map joinText))
  | .isEqual, [some a, some b] => some (.bool (a == b))
  | _, _ => none

end Target

abbrev Fragment := Template.Piece TemplateOp

abbrev Place := Template.Expr TemplateOp

namespace Place

def key (name : String) : Place :=
  .path 0 [name]

def outer (name : String) : Place :=
  .path 1 [name]

/-- The current item itself. -/
def item : Place :=
  .path 0 []

def type : Place :=
  .call .type [key "type"]

def typeOf (place : Place) : Place :=
  .call .type [place]

def typeName (place : Place) : Place :=
  .call .typeName [place]

def fieldName (place : Place) : Place :=
  .call .fieldName [place]

def caseName (place : Place) : Place :=
  .call .caseName [place]

def variantName (place : Place) : Place :=
  .call .variantName [place]

def constant (place : Place) : Place :=
  .call .constant [place]

def quoted (place : Place) : Place :=
  .call .quoted [place]

def doc (level : Nat) : Place :=
  .call (.doc level) [key "description", key "status"]

def deprecated (level : Nat) : Place :=
  .call (.deprecated level) [key "deprecation"]

/-- The default of the current item as a field of the node around it. -/
def fieldDefault : Place :=
  .call .fieldDefault [outer "name", item]

def isRequired : Place :=
  .call .isRequired [key "type"]

def isInherited : Place :=
  .call .isInherited [outer "name", key "name"]

/-- The supertypes of the current node. -/
def supertypes : Place :=
  .call .supertypes [key "name"]

def join (list : Place) (separator : String) : Place :=
  .call .join [list, .text separator]

def literal (value : Place) : Place :=
  .call .literal [value, key "type"]

def isWrapper (kind : Place) : Place :=
  .call .isEqual [kind, .text "wrapper"]

end Place

namespace Fragment

def whenHolds (condition : Place) (yes : List Fragment) : Fragment :=
  .choice condition yes []

def unlessHolds (condition : Place) (no : List Fragment) : Fragment :=
  .choice condition [] no

def forEach (list : Place) (body : List Fragment) : Fragment :=
  .each list body none

def betweenItems (separator : String) : Fragment :=
  unlessHolds .isLast [.text separator]

def typeNames (list : Place) : Fragment :=
  forEach list [.value (Place.typeName Place.item), betweenItems ", "]

end Fragment

end SchemaBindings
