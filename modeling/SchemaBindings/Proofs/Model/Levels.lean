import SchemaBindings.Model.Type
import Mathlib.Data.List.Basic

namespace SchemaBindings.Model.TypeExpr

def MarksOnce : TypeExpr → Prop
  | scalar _ | named _ => True
  | list item => item.MarksOnce
  | nonNull type => type.isRequired = false ∧ type.MarksOnce

def base : TypeExpr → TypeExpr
  | list type | nonNull type => type.base
  | type => type

/-- Which levels are non-null, from the outermost list to the type inside all of them. -/
def levels : TypeExpr → List Bool
  | scalar _ | named _ => [false]
  | list item => false :: item.levels
  | nonNull type => true :: type.levels.tail

theorem levels_eq_cons (a : TypeExpr) : a.levels = a.isRequired :: a.levels.tail := by
  cases a <;> rfl

def marked (required : Bool) (type : TypeExpr) : TypeExpr :=
  if required then nonNull type else type

/-- The type with given levels over another one. -/
def ofLevels (base : TypeExpr) : List Bool → TypeExpr
  | [] => base
  | [required] => marked required base
  | required :: item :: levels => marked required (list (ofLevels base (item :: levels)))

theorem ofLevels_true_cons (base : TypeExpr) (levels : List Bool) :
    ofLevels base (true :: levels) = nonNull (ofLevels base (false :: levels)) := by
  cases levels <;> rfl

theorem ofLevels_levels {a : TypeExpr} (h : a.MarksOnce) : ofLevels a.base a.levels = a := by
  induction a with
  | scalar name => rfl
  | named type => rfl
  | list item ih =>
    have hitem := ih h
    rw [levels_eq_cons] at hitem
    rw [levels, levels_eq_cons, ofLevels]
    exact congrArg list hitem
  | nonNull type ih =>
    have hsame : type.levels = false :: type.levels.tail := h.1 ▸ type.levels_eq_cons
    rw [base, levels, ofLevels_true_cons, ← hsame, ih h.2]

theorem eq_of_levels_eq {a b : TypeExpr} (ha : a.MarksOnce) (hb : b.MarksOnce)
    (hbase : a.base = b.base) (hlevels : a.levels = b.levels) : a = b := by
  rw [← ofLevels_levels ha, hbase, hlevels, ofLevels_levels hb]

end SchemaBindings.Model.TypeExpr
