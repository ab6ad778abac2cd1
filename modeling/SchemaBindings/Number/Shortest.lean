import SchemaBindings.Number.Double

namespace SchemaBindings

/-- The decimal `0.d₁d₂… * 10 ^ point`, whose first digit is not zero. -/
structure Decimal where
  digits : List Nat
  point : Int
  deriving Repr, DecidableEq

namespace Decimal

/-- Which of two equally near decimals is chosen. -/
inductive Tie where
  | up
  | toEven
  deriving Repr, DecidableEq

def digitsOf (n : Nat) : List Nat :=
  (Nat.toDigits 10 n).map fun c => c.toNat - '0'.toNat

/-- The place of the decimal point of `n / d`: the `p` with `10 ^ (p - 1) ≤ n / d < 10 ^ p`. It is
counted on a multiple of the quotient that has no digits to lose. -/
def pointOf (n d : Nat) : Int :=
  ((digitsOf (n * Nat.pow 10 400 / d)).length : Int) - 400

def inUnits (n d : Nat) (e : Int) : Nat × Nat :=
  if e < 0 then (n * Nat.pow 10 (-e).toNat, d) else (n, d * Nat.pow 10 e.toNat)

/-- The interval of the reals that round to `m * 2 ^ q`, with the number itself between the ends.
The three are numerators that share a denominator. Below a power of two the numbers lie twice as
dense. -/
structure Interval where
  low : Nat
  middle : Nat
  high : Nat
  den : Nat
  closed : Bool

def Interval.around (m : Nat) (q : Int) : Interval :=
  let (n, d) := Double.ratio m q
  let unit := if q < 0 then 1 else Nat.pow 2 q.toNat
  let below := if m = Nat.pow 2 52 ∧ Double.minExponent < q then 1 else 2
  ⟨4 * n - below * unit, 4 * n, 4 * n + 2 * unit, 4 * d, m % 2 = 0⟩

def Interval.holds (i : Interval) (count : Nat) (e : Int) : Bool :=
  let (low, d) := inUnits i.low i.den e
  let (high, _) := inUnits i.high i.den e
  if i.closed then low ≤ count * d && count * d ≤ high
  else low < count * d && count * d < high

/-- Of the two multiples of `10 ^ e` around the middle of the interval, the nearest that lies in
it. -/
def nearest? (tie : Tie) (i : Interval) (e : Int) : Option Nat :=
  let (n, d) := inUnits i.middle i.den e
  let lower := n / d
  let upper := lower + 1
  if i.holds lower e && lower ≠ 0 then
    if i.holds upper e then
      let twice := 2 * (n % d)
      if twice < d then some lower
      else if d < twice then some upper
      else match tie with
        | .up => some upper
        | .toEven => some (lower + lower % 2)
    else some lower
  else if i.holds upper e then some upper
  else none

def ofCount (count : Nat) (e : Int) : Decimal :=
  let digits := digitsOf count
  ⟨(digits.reverse.dropWhile (· == 0)).reverse, digits.length + e⟩

/-- The shortest decimal that reads back as the positive number `m * 2 ^ q`. Seventeen digits always
do. -/
def shortest (tie : Tie) (m : Nat) (q : Int) : Decimal :=
  let i := Interval.around m q
  let point := pointOf i.middle i.den
  let candidate := (List.range 17).findSome? fun k =>
    let e := point - (k + 1 : Nat)
    (nearest? tie i e).map fun count => ofCount count e
  candidate.getD (ofCount m q)

end Decimal

end SchemaBindings
