import SchemaBindings.Model.Basic

namespace SchemaBindings.Model

def futureTypes (m : Model) : List String :=
  let named (entries : List (Status × String)) := (entries.filter (·.1.isFuture)).map (·.2)
  named (m.scalars.map fun t => (t.status, t.name)) ++
    named (m.enums.map fun t => (t.status, t.name)) ++
    named (m.interfaces.map fun t => (t.status, t.name)) ++
    named (m.objects.map fun t => (t.status, t.name)) ++
    named (m.inputs.map fun t => (t.status, t.name)) ++
    named (m.unions.map fun t => (t.status, t.name))

variable (removed : List String)

def keepsType (t : TypeExpr) : Bool :=
  !removed.contains t.name

def keepsArguments (arguments : List Argument) : Bool :=
  arguments.all fun a => keepsType removed a.type

def keepsField (f : Field) : Bool :=
  !f.status.isFuture && keepsType removed f.type && keepsArguments removed f.arguments

def keepsOperationField (f : OperationField) : Bool :=
  !f.status.isFuture && keepsType removed f.returnType && keepsArguments removed f.arguments

def keepsMember (m : UnionMember) : Bool :=
  !m.status.isFuture && !removed.contains m.typeName

/-- An alias stays if the value that it stands for does. -/
def EnumType.stable (e : EnumType) : EnumType :=
  let values := e.values.filter fun v => !v.status.isFuture
  { e with
    values := values
    aliases := e.aliases.filter fun a => values.any (·.name == a.canonical) }

def RecordType.stable (r : RecordType) : RecordType :=
  { r with
    implements := r.implements.filter fun name => !removed.contains name
    fields := r.fields.filter (keepsField removed) }

def InputType.stable (i : InputType) : InputType :=
  { i with fields := i.fields.filter (keepsField removed) }

def UnionType.stable (u : UnionType) : UnionType :=
  { u with members := u.members.filter (keepsMember removed) }

def Operation.stable (o : Operation) : Operation :=
  { o with fields := o.fields.filter (keepsOperationField removed) }

/-- The model without what is marked as future and without the members that refer to a declaration
that went. -/
def stable (m : Model) : Model :=
  let removed := m.futureTypes
  { m with
    scalars := m.scalars.filter fun t => !t.status.isFuture
    enums := (m.enums.filter fun t => !t.status.isFuture).map EnumType.stable
    interfaces := (m.interfaces.filter fun t => !t.status.isFuture).map (RecordType.stable removed)
    objects := (m.objects.filter fun t => !t.status.isFuture).map (RecordType.stable removed)
    inputs := (m.inputs.filter fun t => !t.status.isFuture).map (InputType.stable removed)
    unions := (m.unions.filter fun t => !t.status.isFuture).map (UnionType.stable removed)
    operations := m.operations.map (Operation.stable removed) }

end SchemaBindings.Model
