import SchemaBindings.Text.Alphanumeric
import SchemaBindings.Text.Letter
import SchemaBindings.Text.Lines

namespace SchemaBindings.Naming

open Text

inductive Hump where
  | none
  | lower
  | upper
  deriving Repr, DecidableEq

/-- The case after reading `c`: digits and letters without case leave it as it was. -/
def Hump.next (h : Hump) (c : Char) : Hump :=
  if isLowercase c then .lower else if isUppercase c then .upper else h

/-- Cuts a run of letters and digits into words. `word` holds the characters read since the last
cut, the latest first, and `h` the case among them. -/
def cutHumps (h : Hump) (word : List Char) : List Char → List (List Char)
  | [] => []
  | [c] => [(c :: word).reverse]
  | c :: d :: cs =>
    if h.next c = .lower ∧ isUppercase d then
      (c :: word).reverse :: cutHumps .none [] (d :: cs)
    else if h = .upper ∧ isUppercase c ∧ isLowercase d then
      word.reverse :: cutHumps .none [c] (d :: cs)
    else
      cutHumps (h.next c) (c :: word) (d :: cs)

/-- A word ends at a character that is neither letter nor digit, where an uppercase letter follows a
lowercase one (`fooBar`), and before the last capital of a run of capitals that a lowercase letter
follows (`XMLReader` is `XML`, `Reader`). -/
def words (cs : List Char) : List (List Char) :=
  (splitAt (fun c => !isAlphanumeric c) cs).flatMap (cutHumps .none [])

theorem flatten_cutHumps {h : Hump} {word cs : List Char} (hcs : cs ≠ []) :
    (cutHumps h word cs).flatten = word.reverse ++ cs := by
  fun_induction cutHumps h word cs with
  | case1 => exact absurd rfl hcs
  | case2 => simp
  | case3 _ _ _ _ _ _ ih => simp [ih]
  | case4 _ _ _ _ _ _ _ ih => simp [ih]
  | case5 _ _ _ _ _ _ _ ih => simp [ih]

end SchemaBindings.Naming
