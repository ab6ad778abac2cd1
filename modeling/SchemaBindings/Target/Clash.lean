import SchemaBindings.Model.Basic
import SchemaBindings.Target.Language

namespace SchemaBindings

open Model

inductive TemplateKind where
  | file
  | scalar
  | enum
  | interface
  | object
  | input
  | union
  | operation
  deriving Repr, DecidableEq

namespace TemplateKind

def all : List TemplateKind :=
  [.file, .scalar, .enum, .interface, .object, .input, .union, .operation]

def text : TemplateKind → String
  | file => "file"
  | scalar => "scalar"
  | enum => "enum"
  | interface => "interface"
  | object => "object"
  | input => "input"
  | union => "union"
  | operation => "operation"

end TemplateKind

/-- What bindings hold and what can fail to be written. -/
inductive Construct where
  | enum (name : String)
  | interface (name : String)
  | object (name : String)
  | input (name : String)
  | union (name : String)
  | operation (kind : OperationKind) (typeName : String)
  | file (name : String)
  deriving Repr, DecidableEq

def Construct.display : Construct → String
  | enum name => s!"enum `{name}`"
  | interface name => s!"interface `{name}`"
  | object name => s!"object `{name}`"
  | input name => s!"input `{name}`"
  | union name => s!"union `{name}`"
  | operation kind typeName => s!"{kind.text} `{typeName}`"
  | file name => s!"file `{name}`"

/-- What stands in the way of writing a construct. -/
inductive Obstacle where
  | clash (first second identifier : String)
  /-- A field of an interface has another type than in an interface that it implements. -/
  | narrowed (field parent : String)
  /-- A field has different types in two interfaces. -/
  | diverging (field first second : String)
  deriving Repr, DecidableEq

def Obstacle.reason : Obstacle → String
  | clash first second identifier => s!"`{first}` and `{second}` both map to `{identifier}`"
  | narrowed field parent => s!"`{field}` narrows the type declared by `{parent}`"
  | diverging field first second =>
    s!"`{field}` needs a different type for `{first}` and `{second}`"

inductive BindingError where
  | unsupported (construct : Construct) (obstacle : Obstacle)
  /-- A template asks for something that its node does not have. -/
  | template (kind : TemplateKind)
  deriving Repr, DecidableEq

def Construct.unsupportedMessage (l : Language) (c : Construct) (o : Obstacle) : String :=
  s!"{l.text} cannot represent {c.display}: {o.reason}"

/-- An identifier of the bindings, and the name that it comes from. -/
structure Declared where
  origin : String
  identifier : String
  deriving Repr, DecidableEq

namespace Declared

def clashAfter? (seen : List Declared) : List Declared → Option Obstacle
  | [] => none
  | d :: ds =>
    match seen.find? (·.identifier == d.identifier) with
    | some earlier => some (.clash earlier.origin d.origin d.identifier)
    | none => clashAfter? (d :: seen) ds

/-- The first identifier that is declared twice. -/
def clash? (declared : List Declared) : Option Obstacle :=
  clashAfter? [] declared

theorem clashAfter?_eq_none {seen declared : List Declared} :
    clashAfter? seen declared = none ↔
      (declared.map (·.identifier)).Nodup ∧
        ∀ d ∈ declared, ∀ e ∈ seen, e.identifier ≠ d.identifier := by
  induction declared generalizing seen with
  | nil => simp [clashAfter?]
  | cons d ds ih =>
    rw [clashAfter?]
    cases h : seen.find? (·.identifier == d.identifier) with
    | some e =>
      have he := List.mem_of_find?_eq_some h
      have hi := List.find?_some h
      simp only [beq_iff_eq] at hi
      simp only [reduceCtorEq, List.mem_cons, forall_eq_or_imp, false_iff, not_and]
      exact fun _ hd => absurd hi (hd e he)
    | none =>
      simp only [List.find?_eq_none, beq_iff_eq] at h
      simp only [ih, List.map_cons, List.nodup_cons, List.mem_map, List.mem_cons, forall_eq_or_imp]
      constructor
      · rintro ⟨hn, hd⟩
        exact ⟨⟨fun ⟨e, he, hi⟩ => (hd e he).1 hi.symm, hn⟩, h, fun e he f hf => (hd e he).2 f hf⟩
      · rintro ⟨⟨hd, hn⟩, _, hs⟩
        exact ⟨hn, fun e he => ⟨fun hi => hd ⟨e, he, hi.symm⟩, hs e he⟩⟩

theorem clash?_eq_none {declared : List Declared} :
    clash? declared = none ↔ (declared.map (·.identifier)).Nodup := by
  simp [clash?, clashAfter?_eq_none]

end Declared

end SchemaBindings
