import SchemaBindings.Model.Basic
import SchemaBindings.Tables
import SchemaBindings.Target.Dialect

namespace SchemaBindings

open Model

/-- What bindings are written for: a language, a model, and the tables for it. -/
structure Target where
  language : Language
  model : Model
  tables : Tables

namespace Target

variable (t : Target)

def dialect : Dialect :=
  t.language.dialect

def customInput? (name : String) : Option CustomInput :=
  t.tables.customInput? name t.language.text

def namedType (type : NamedType) : String :=
  match type.kind with
  | .input =>
    match t.customInput? type.name with
    | some custom => custom.typeName
    | none => t.language.typeName type.name
  | .scalar => t.language.declaredScalar type.name
  | _ => t.language.typeName type.name

/-- A type where null is marked on every level. -/
def markedType : TypeExpr → String
  | .nonNull (.list item) => t.dialect.listOf item.isRequired (markedType item)
  | .nonNull (.named type) => t.namedType type
  | .nonNull (.scalar name) => t.language.scalarName name
  | .nonNull (.nonNull type) => t.language.scalarName type.name
  | .list item => t.dialect.optional (t.dialect.listOf item.isRequired (markedType item))
  | .named type => t.dialect.optional (t.namedType type)
  | .scalar name => t.dialect.optional (t.language.scalarName name)

def anyType : String := "Variant"

/-- Whether a list of such items is typed: they are neither null nor lists nor declared scalars. -/
def typesItems (item : TypeExpr) : Bool :=
  item.isRequired && !item.isList && item.named?.map (·.kind) != some .scalar

/-- A type where null is not marked. Objects may be null; enum values in lists are numbers. -/
def looseType : TypeExpr → String
  | .nonNull (.list item) =>
    if typesItems item then
      t.dialect.listOf item.isRequired
        (if item.named?.any (·.kind == .enum) then "int" else looseType item)
    else "Array"
  | .nonNull (.named type) =>
    if type.kind = .enum then t.language.typeName type.name else t.namedType type
  | .nonNull (.scalar name) => t.language.scalarName name
  | .nonNull (.nonNull _) => anyType
  | .list _ => anyType
  | .named type => if type.kind = .enum then anyType else t.namedType type
  | .scalar _ => anyType

def typeText (type : TypeExpr) : String :=
  match t.language with
  | .gdScript => t.looseType type
  | _ => t.markedType type

end Target

end SchemaBindings
