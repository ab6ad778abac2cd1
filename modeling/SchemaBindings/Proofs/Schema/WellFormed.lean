import SchemaBindings.Schema.Merge
import Mathlib.Logic.Relation

namespace SchemaBindings

open Sdl

/-- A name refers to a scalar that needs no declaration or to one of the types. -/
inductive Refers (types : List SchemaType) : String → TypeKind → Prop
  | builtin {name : String} (h : name ∈ builtinScalars) : Refers types name .scalar
  | declared {t : SchemaType} (h : t ∈ types) : Refers types t.name t.kind

/-- A field may have the type: it exists and is no input object. -/
def OutputReference (types : List SchemaType) (t : TypeRef) : Prop :=
  ∃ kind, Refers types t.name kind ∧ kind ≠ .inputObject

/-- An argument may have the type: it is a scalar, an enum or an input object. -/
def InputReference (types : List SchemaType) (t : TypeRef) : Prop :=
  ∃ kind, Refers types t.name kind ∧ (kind = .scalar ∨ kind = .enum ∨ kind = .inputObject)

/-- What the parts of a type contribute to its content; scalars have none. -/
def SchemaType.HasContent (t : SchemaType) : Prop :=
  match t.kind with
  | .object | .interface => t.fields ≠ []
  | .inputObject => t.inputFields ≠ []
  | .enum => t.values ≠ []
  | .union => t.members ≠ []
  | .scalar => True

structure SchemaType.WellFormed (types : List SchemaType) (t : SchemaType) : Prop where
  content : t.HasContent
  fields_nodup : (t.fields.map (·.2.name.text)).Nodup
  arguments_nodup : ∀ f ∈ t.fields, (f.2.arguments.map (·.name.text)).Nodup
  inputFields_nodup : (t.inputFields.map (·.2.name.text)).Nodup
  values_nodup : (t.values.map (·.2.name.text)).Nodup
  members_nodup : (t.members.map (·.2.text)).Nodup
  implements_nodup : (t.implements.map (·.2.text)).Nodup
  field_types : ∀ f ∈ t.fields, OutputReference types f.2.type
  argument_types : ∀ f ∈ t.fields, ∀ a ∈ f.2.arguments, InputReference types a.type
  inputField_types : ∀ f ∈ t.inputFields, InputReference types f.2.type
  implements_interfaces : ∀ n ∈ t.implements, Refers types n.2.text .interface
  members_objects : ∀ n ∈ t.members, Refers types n.2.text .object

/-- A value of the first input object must hold a value of the second: a field that is no list has
its type and admits no null. -/
def Requires (types : List SchemaType) (a b : String) : Prop :=
  ∃ t ∈ types, t.name = a ∧ Refers types b .inputObject ∧
    ∃ f ∈ t.inputFields, ∃ inner outer, f.2.type = .nonNull (.named b inner) outer

namespace Merge

/-- The declared types, each with the extensions of its name in any file. -/
def merged (definitions : List Placed) : List SchemaType :=
  (declarations definitions).map fun part ↦
    ⟨part, (extensions definitions).filter (·.definition.name.text == part.definition.name.text)⟩

def operations (parts : List SchemaPart) : List OperationType :=
  parts.flatMap (·.definition.operations)

end Merge

open Merge

/-- The definitions make up a schema. -/
structure WellFormed (definitions : List Placed) : Prop where
  names_nodup : ((declarations definitions).map (·.definition.name.text)).Nodup
  names_new : ∀ d ∈ declarations definitions, d.definition.name.text ∉ builtinScalars
  extended : ∀ e ∈ extensions definitions, ∃ d ∈ declarations definitions,
    d.definition.name.text = e.definition.name.text ∧ d.definition.kind = e.definition.kind
  one_schema : ((schemaParts definitions).filter (!·.isExtension)).length ≤ 1
  operations_nodup : ((operations (schemaParts definitions)).map (·.operation)).Nodup
  operations_objects : ∀ o ∈ operations (schemaParts definitions),
    ∃ d ∈ declarations definitions, d.definition.name.text = o.typeName.text ∧
      d.definition.kind = .object
  types : ∀ t ∈ merged definitions, t.WellFormed (merged definitions)
  acyclic : ∀ name, ¬ Relation.TransGen (Requires (merged definitions)) name name

end SchemaBindings
