import SchemaBindings.Number.Shortest

namespace SchemaBindings

structure Layout where
  /-- The decimal exponents that are written without an exponent mark; all of them if none are
  given. -/
  positional : Option (Int × Int)
  wholePoint : Bool
  exponentPlus : Bool
  tie : Decimal.Tie
  deriving Repr, DecidableEq

namespace Layout

/-- Positional between 1e-4 and 1e16, and always recognisable as a fraction. -/
def literal : Layout :=
  ⟨some (-4, 15), true, false, .up⟩

/-- Positional whatever the size, and as short as possible. -/
def plain : Layout :=
  ⟨none, false, false, .up⟩

def json : Layout :=
  ⟨some (-5, 15), true, true, .toEven⟩

def digitText (digits : List Nat) : String :=
  .ofList (digits.map Nat.digitChar)

def zeros (n : Nat) : String :=
  .ofList (List.replicate n '0')

def positionalText (wholePoint : Bool) (d : Decimal) : String :=
  if d.point ≤ 0 then "0." ++ zeros (-d.point).toNat ++ digitText d.digits
  else if d.digits.length ≤ d.point then
    digitText d.digits ++ zeros (d.point - d.digits.length).toNat ++
      (if wholePoint then ".0" else "")
  else
    digitText (d.digits.take d.point.toNat) ++ "." ++ digitText (d.digits.drop d.point.toNat)

def exponentText (plus : Bool) (d : Decimal) : String :=
  let fraction := d.digits.drop 1
  let exponent := d.point - 1
  digitText (d.digits.take 1) ++ (if fraction.isEmpty then "" else "." ++ digitText fraction) ++
    "e" ++ (if plus && 0 ≤ exponent then "+" else "") ++ toString exponent

def magnitudeText (l : Layout) (m : Nat) (q : Int) : String :=
  if m = 0 then (if l.wholePoint then "0.0" else "0")
  else
    let d := Decimal.shortest l.tie m q
    let exponent := d.point - 1
    match l.positional with
    | none => positionalText l.wholePoint d
    | some (low, high) =>
      if low ≤ exponent ∧ exponent ≤ high then positionalText l.wholePoint d
      else exponentText l.exponentPlus d

def text (l : Layout) : Double → String
  | .finite negative m q => (if negative then "-" else "") ++ l.magnitudeText m q
  | .infinite negative => if negative then "-inf" else "inf"
  | .notANumber => "NaN"

end Layout

end SchemaBindings
