import SchemaBindings.Target.TypeReference

namespace SchemaBindings.Target

open Model

variable (t : Target)

/-- The type whose values are stored inside a value of a type, if there is one. Lists and values of
interfaces are stored elsewhere. -/
def storedType? (type : TypeExpr) : Option String :=
  match type.optional with
  | .named named =>
    match named.kind with
    | .object | .union => some named.name
    | .input => if (t.customInput? named.name).isNone then some named.name else none
    | _ => none
  | _ => none

def storedIn (name : String) : List String :=
  match t.model.object? name, t.model.input? name, t.model.union? name with
  | some object, _, _ => object.fields.filterMap fun f => t.storedType? f.type
  | none, some input, _ => input.fields.filterMap fun f => t.storedType? f.type
  | none, none, some union =>
    (union.members.map (·.typeName)).filter fun member => (t.model.interface? member).isNone
  | none, none, none => []

/-- The names among `remaining` that are reached from `pending`, those in it included. A name that
has been found remains no longer. -/
def reached (next : String → List String) : List String → List String → List String
  | _, [] => []
  | remaining, name :: pending =>
    if name ∈ remaining then name :: reached next (remaining.erase name) (next name ++ pending)
    else reached next remaining pending
termination_by remaining pending => (remaining.length, pending.length)
decreasing_by
  · rename_i member
    have positive := List.length_pos_of_mem member
    simp only [List.length_erase_of_mem member]
    exact Prod.Lex.left _ _ (by omega)
  · exact Prod.Lex.right _ (by simp)

def storingTypes : List String :=
  t.model.objects.map (·.name) ++ t.model.inputs.map (·.name) ++ t.model.unions.map (·.name)

def storesItself (name : String) : Bool :=
  (reached t.storedIn t.storingTypes (t.storedIn name)).contains name

end SchemaBindings.Target
