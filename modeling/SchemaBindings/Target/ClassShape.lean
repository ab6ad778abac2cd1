import SchemaBindings.Model.Encoding
import SchemaBindings.Target.Literal

namespace SchemaBindings

open Model

structure ClassShape where
  name : String
  description : Option String
  status : Status
  base : Option String
  alsoImplements : List String
  /-- The fields that the base does not declare. -/
  fields : List Field
  deriving Repr

namespace ClassShape

/-- The class of a declaration. Its base is the first of its interfaces that is declared. -/
def ofRecord (m : Model) (r : RecordType) : ClassShape :=
  match r.implements.filterMap m.interface? with
  | [] => ⟨r.name, r.description, r.status, none, [], r.fields⟩
  | base :: others =>
    ⟨r.name, r.description, r.status, some base.name, others.map (·.name),
      r.fields.filter fun field => base.fields.all (·.name != field.name)⟩

def toJson (c : ClassShape) : Json :=
  .object [("name", .string c.name), ("description", Json.ofText? c.description),
    ("status", c.status.toJson), ("base", Json.ofText? c.base),
    ("also_implements", .array (c.alsoImplements.map .string)),
    ("fields", .array (c.fields.map Field.toJson))]

end ClassShape

structure Method where
  field : OperationField
  parameters : String
  returnType : String
  /-- The value that the method returns as long as nothing else is written. -/
  placeholder : String
  deriving Repr

def Method.toJson (m : Method) : Json :=
  .object [("name", .string m.field.name), ("description", Json.ofText? m.field.description),
    ("deprecation", Json.ofText? m.field.deprecation), ("status", m.field.status.toJson),
    ("params", .string m.parameters), ("return_type", .string m.returnType),
    ("stub", .string m.placeholder)]

namespace Target

variable (t : Target)

/-- The value of a parameter that is left out: the default of the argument, or else null if that is
one of its values. -/
def parameterDefault? (a : Argument) : Option String :=
  match a.defaultValue.bind fun value => t.literal? value a.type with
  | some literal => some literal
  | none => if a.type.isRequired then none else some "null"

/-- A parameter, and whether the one before it may have a default. That is so as long as every
argument from the last one on has had one. -/
def declareParameter (trailing : Bool) (a : Argument) : String × Bool :=
  let declared := t.language.fieldName a.name ++ ": " ++ t.typeText a.type
  match t.parameterDefault? a, trailing with
  | some value, true => (declared ++ " = " ++ value, true)
  | _, _ => (declared, false)

/-- The parameters for arguments that are given from the last one to the first. -/
def declareParameters (trailing : Bool) : List Argument → List String
  | [] => []
  | a :: before =>
    let (written, trailing) := t.declareParameter trailing a
    written :: declareParameters trailing before

def parameterList (arguments : List Argument) : List String :=
  (t.declareParameters true arguments.reverse).reverse

theorem declareParameter_snd (trailing : Bool) (a : Argument) :
    (t.declareParameter trailing a).2 = (trailing && (t.parameterDefault? a).isSome) := by
  cases h : t.parameterDefault? a <;> cases trailing <;> simp [declareParameter, h]

theorem declareParameters_append (trailing : Bool) (arguments before : List Argument) :
    t.declareParameters trailing (arguments ++ before) =
      t.declareParameters trailing arguments ++
        t.declareParameters (trailing && arguments.all fun a => (t.parameterDefault? a).isSome)
          before := by
  induction arguments generalizing trailing with
  | nil => simp [declareParameters]
  | cons a arguments ih =>
    simp only [List.cons_append, declareParameters, ih, declareParameter_snd, List.all_cons,
      Bool.and_assoc]

theorem parameterList_cons (a : Argument) (rest : List Argument) :
    t.parameterList (a :: rest) =
      (t.declareParameter (rest.all fun b => (t.parameterDefault? b).isSome) a).1 ::
        t.parameterList rest := by
  simp [parameterList, declareParameters_append, declareParameters]

def parameters (arguments : List Argument) : String :=
  ", ".intercalate (t.parameterList arguments)

def placeholder : TypeExpr → String
  | .nonNull (.list _) => "[]"
  | .nonNull (.scalar name) =>
    if name = "Int" then "0"
    else if name = "Float" then "0.0"
    else if name = "Boolean" then "false"
    else if name = "ID" ∨ name = "String" then "\"\""
    else "null"
  | .nonNull (.named type) => if type.kind = .enum then "0" else "null"
  | _ => "null"

def method (f : OperationField) : Method :=
  ⟨f, t.parameters f.arguments, t.typeText f.returnType, placeholder f.returnType⟩

def methodsJson (o : Operation) : Json :=
  .object [("type_name", .string o.typeName),
    ("fields", .array (o.fields.map fun f => (t.method f).toJson))]

end Target

end SchemaBindings
