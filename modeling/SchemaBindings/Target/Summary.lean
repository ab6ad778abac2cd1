import SchemaBindings.Model.Basic
import SchemaBindings.Tables
import SchemaBindings.Target.Language

namespace SchemaBindings

structure Summary where
  enums : Nat
  interfaces : Nat
  objects : Nat
  inputs : Nat
  unions : Nat
  operations : Nat
  deriving Repr, DecidableEq

namespace Summary

def ofModel (m : Model) : Summary :=
  ⟨m.enums.length, m.interfaces.length, m.objects.length, m.inputs.length, m.unions.length,
    (m.operations.flatMap (·.fields)).length⟩

/-- The declarations in the file of one language. Input types that are replaced without a
declaration are not among them. -/
def forLanguage (m : Model) (tables : Tables) (language : Language) : Summary :=
  let written (i : Model.InputType) : Bool :=
    match tables.customInput? i.name language.text with
    | some custom => custom.declaration.isSome
    | none => true
  { ofModel m with inputs := (m.inputs.filter written).length }

def display (s : Summary) : String :=
  s!"{s.enums} enums, {s.interfaces} interfaces, {s.objects} objects, {s.inputs} inputs, " ++
    s!"{s.unions} unions, {s.operations} operations"

end Summary

end SchemaBindings
