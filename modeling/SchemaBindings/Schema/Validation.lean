import SchemaBindings.Schema.Fault

namespace SchemaBindings

open Sdl

namespace Validation

def withRepeats (name : α → String) (check : Bool → α → List SchemaIssue) (items : List α) :
    List SchemaIssue :=
  go [] items
where
  go (seen : List String) : List α → List SchemaIssue
    | [] => []
    | item :: items => check (seen.contains (name item)) item ++ go (name item :: seen) items

variable (types : List SchemaType)

/-- The referred type must exist and be usable in its direction. -/
def checkReference (file : Nat) (t : TypeRef) (owner : String) (input : Bool) : List SchemaIssue :=
  let issue fault := [⟨fault, t.nameSpan.inFile file⟩]
  match kindOf? types t.name with
  | none => issue (.unknownType owner t.name)
  | some kind =>
    if input && !kind.isInput then issue (.notInputType owner t.name kind)
    else if !input && !kind.isOutput then issue (.notOutputType owner t.name kind)
    else []

def checkImplements (t : SchemaType) : List SchemaIssue :=
  withRepeats (fun (_, n) => n.text) (fun repeated (file, n) =>
    let issue fault := [⟨fault, n.span.inFile file⟩]
    if repeated then issue (.repeatedInterface t.name n.text)
    else match kindOf? types n.text with
      | some .interface => []
      | none => issue (.unknownInterface t.name n.text)
      | some kind => issue (.notInterface t.name n.text kind)) t.implements

def checkArguments (file : Nat) (owner : String) (arguments : List InputValueDefinition) :
    List SchemaIssue :=
  withRepeats (·.name.text) (fun repeated a =>
    let owner := s!"{owner}({a.name.text}:)"
    (if repeated then [⟨.repeatedArgument owner, a.name.span.inFile file⟩] else []) ++
      checkReference types file a.type owner true) arguments

def checkFields (t : SchemaType) : List SchemaIssue :=
  withRepeats (fun (_, f) => f.name.text) (fun repeated (file, f) =>
    let owner := s!"{t.name}.{f.name.text}"
    (if repeated then [⟨.repeatedField owner, f.name.span.inFile file⟩] else []) ++
      checkReference types file f.type owner false ++
      checkArguments types file owner f.arguments) t.fields

def checkMembers (t : SchemaType) : List SchemaIssue :=
  withRepeats (fun (_, n) => n.text) (fun repeated (file, n) =>
    let issue fault := [⟨fault, n.span.inFile file⟩]
    if repeated then issue (.repeatedMember t.name n.text)
    else match kindOf? types n.text with
      | some .object => []
      | none => issue (.unknownMember t.name n.text)
      | some kind => issue (.memberNotObject t.name n.text kind)) t.members

def checkValues (t : SchemaType) : List SchemaIssue :=
  withRepeats (fun (_, v) => v.name.text) (fun repeated (file, v) =>
    if repeated then [⟨.repeatedEnumValue t.name v.name.text, v.name.span.inFile file⟩] else [])
    t.values

def checkInputFields (t : SchemaType) : List SchemaIssue :=
  withRepeats (fun (_, f) => f.name.text) (fun repeated (file, f) =>
    let owner := s!"{t.name}.{f.name.text}"
    (if repeated then [⟨.repeatedInputField owner, f.name.span.inFile file⟩] else []) ++
      checkReference types file f.type owner true) t.inputFields

def contentCount? (t : SchemaType) : Option Nat :=
  match t.kind with
  | .object | .interface => some t.fields.length
  | .inputObject => some t.inputFields.length
  | .enum => some t.values.length
  | .union => some t.members.length
  | .scalar => none

/-- Every type but a scalar needs content, perhaps from its extensions. -/
def checkContent (t : SchemaType) : List SchemaIssue :=
  if contentCount? t = some 0 then [⟨.emptyType t.kind t.name, t.location⟩] else []

def checkType (t : SchemaType) : List SchemaIssue :=
  (match t.kind with
    | .object | .interface => checkImplements types t ++ checkFields types t
    | .union => checkMembers types t
    | .enum => checkValues t
    | .inputObject => checkInputFields types t
    | .scalar => []) ++ checkContent t

/-- A field by which a value of an input object must hold a value of the input object `target`. -/
structure Need where
  file : Nat
  field : InputValueDefinition
  target : String
  deriving Repr

/-- The needs of a type: its required fields of input object type that are no lists. -/
def needsOf (t : SchemaType) : List Need :=
  t.inputFields.filterMap fun (file, f) =>
    match f.type with
    | .nonNull (.named target _) _ =>
      if kindOf? types target = some .inputObject then some ⟨file, f, target⟩ else none
    | _ => none

def needs (name : String) : List Need :=
  match findType? types name with
  | some t => needsOf types t
  | none => []

structure CycleSearch where
  issues : List SchemaIssue
  done : List String
  deriving Repr

/-- Follows the needs of `node`, where `path` leads from the start of the search to it. A path names
each type at most once, so `depth` may be the number of types. -/
def visit : (depth : Nat) → (path : List String) → (node : String) → CycleSearch → CycleSearch
  | 0, _, _, s => s
  | depth + 1, path, node, s =>
    let path := path ++ [node]
    let s := (needs types node).foldl (fun s need =>
      if path.contains need.target then
        let cycle := path.dropWhile (· != need.target) ++ [need.target]
        { s with
          issues := s.issues ++ [⟨.inputCycle cycle, need.field.span.inFile need.file⟩] }
      else if s.done.contains need.target then s
      else visit depth path need.target s) s
    { s with done := node :: s.done }

def checkCycles : List SchemaIssue :=
  (types.foldl (fun s t =>
    if t.kind = .inputObject ∧ ¬ s.done.contains t.name then visit types types.length [] t.name s
    else s) (⟨[], []⟩ : CycleSearch)).issues

end Validation

def validate (types : List SchemaType) : List SchemaIssue :=
  types.flatMap (Validation.checkType types) ++ Validation.checkCycles types

end SchemaBindings
