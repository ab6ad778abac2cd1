import SchemaBindings.Model.Encoding
import SchemaBindings.Target.Clash
import SchemaBindings.Target.Storage

namespace SchemaBindings

open Model

structure Property where
  field : Field
  stored : String
  /-- The type of the getter beside it, if there is one. -/
  witness : Option String
  deriving Repr

structure Record where
  name : String
  description : Option String
  status : Status
  implements : List String
  isReference : Bool
  properties : List Property
  deriving Repr

namespace Property

def declared (l : Language) (p : Property) : List Declared :=
  ⟨p.field.name, p.stored⟩ ::
    p.witness.toList.map fun _ => ⟨p.field.name, l.fieldName p.field.name⟩

def toJson (p : Property) : Json :=
  .object (p.field.entries ++ [("stored", .string p.stored), ("witness", Json.ofText? p.witness)])

end Property

def Record.toJson (r : Record) : Json :=
  .object [("name", .string r.name), ("description", Json.ofText? r.description),
    ("status", r.status.toJson), ("implements", .array (r.implements.map .string)),
    ("reference", .bool r.isReference), ("fields", .array (r.properties.map Property.toJson))]

namespace Target

variable (t : Target)

/-- The interfaces among `implements` that declare a field, and the type that each gives it. -/
def requiredTypes (implements : List String) (field : String) : List (String × TypeExpr) :=
  (implements.filterMap t.model.interface?).filterMap fun interface =>
    (interface.fields.find? (·.name == field)).map fun f => (interface.name, f.type)

/-- A field that narrows the type in its interface is stored under a longer name, beside a getter
with the type that the interface asks for. -/
def property (implements : List String) (field : Field) : Except Obstacle Property :=
  let required := t.requiredTypes implements field.name
  match required.find? fun r => r.2 ≠ field.type with
  | none => .ok ⟨field, t.language.fieldName field.name, none⟩
  | some (interface, type) =>
    match required.find? fun r => r.2 ≠ type with
    | some (other, _) => .error (.diverging field.name interface other)
    | none =>
      let longName := field.name ++ Naming.Style.pascal.apply field.type.name
      .ok ⟨field, t.language.fieldName longName, some (t.typeText type)⟩

def record (r : RecordType) : Except Obstacle Record := do
  let properties ← r.fields.mapM (t.property r.implements)
  match Declared.clash? (properties.flatMap (·.declared t.language)) with
  | some clash => .error clash
  | none =>
    .ok ⟨r.name, r.description, r.status, r.implements, t.storesItself r.name, properties⟩

/-- The first field of an interface that has another type in one of its interfaces. -/
def narrowing? (interface : RecordType) : Option Obstacle :=
  interface.fields.findSome? fun field =>
    ((t.requiredTypes interface.implements field.name).find? fun r => r.2 ≠ field.type).map
      fun r => .narrowed field.name r.1

end Target

def Model.InputType.asRecord (i : InputType) : RecordType :=
  ⟨i.name, i.description, i.status, [], i.fields⟩

end SchemaBindings
