
namespace SchemaBindings

/-- A number in double precision. -/
inductive Double where
  /-- The number `significand * 2 ^ exponent`, or its negative. -/
  | finite (negative : Bool) (significand : Nat) (exponent : Int)
  | infinite (negative : Bool)
  | notANumber
  deriving Repr, DecidableEq, Inhabited

namespace Double

def minExponent : Int := -1074

def maxExponent : Int := 971

def zero (negative : Bool) : Double :=
  .finite negative 0 minExponent

def isFinite : Double → Bool
  | .finite .. => true
  | _ => false

/-- Whether a number has all its 53 bits. Zero and the numbers next to it do not. -/
def isNormal : Double → Bool
  | .finite _ m _ => Nat.pow 2 52 ≤ m
  | _ => false

/-- The quotient of the whole numbers `n * 2 ^ (-q)` and `d`, without a fraction in either. -/
def scaled (n d : Nat) (q : Int) : Nat × Nat :=
  if q < 0 then (n * Nat.pow 2 (-q).toNat, d) else (n, d * Nat.pow 2 q.toNat)

/-- The whole number nearest to `n / d`; of two equally near ones the even one. -/
def roundToEven (n d : Nat) : Nat :=
  let quotient := n / d
  let twice := 2 * (n % d)
  if twice < d then quotient
  else if d < twice then quotient + 1
  else quotient + quotient % 2

/-- The largest `e` with `2 ^ e ≤ n / d`, for positive `n` and `d`. -/
def floorLog2 (n d : Nat) : Int :=
  let e : Int := n.log2 - d.log2
  let (a, b) := scaled n d e
  if b ≤ a then e else e - 1

/-- The number nearest to `n / d`, or its negative. Beyond the largest number lies infinity. -/
def ofRatio (negative : Bool) (n d : Nat) : Double :=
  if n = 0 ∨ d = 0 then zero negative
  else
    let q := max minExponent (floorLog2 n d - 52)
    let (a, b) := scaled n d q
    let m := roundToEven a b
    let (m, q) := if m = Nat.pow 2 53 then (Nat.pow 2 52, q + 1) else (m, q)
    if maxExponent < q then .infinite negative else .finite negative m q

def ratio (m : Nat) (q : Int) : Nat × Nat :=
  if q < 0 then (m, Nat.pow 2 (-q).toNat) else (m * Nat.pow 2 q.toNat, 1)

def ofNat (n : Nat) : Double :=
  ofRatio false n 1

/-- The number nearest to `digits * 10 ^ exponent`, or its negative. Exponents that are out of range
whatever the digits are decided without computing the power. -/
def ofDecimal (negative : Bool) (digits : Nat) (exponent : Int) : Double :=
  if digits = 0 then zero negative
  else
    let magnitude := exponent + (Nat.log2 digits : Int) * 301 / 1000
    if 400 < magnitude then .infinite negative
    else if magnitude < -400 then zero negative
    else if exponent < 0 then ofRatio negative digits (Nat.pow 10 (-exponent).toNat)
    else ofRatio negative (digits * Nat.pow 10 exponent.toNat) 1

def powerOfTen (k : Nat) : Double :=
  ofNat (Nat.pow 10 k)

def mul : Double → Double → Double
  | .finite negative m q, .finite _ m' q' =>
    let (a, b) := ratio m q
    let (c, d) := ratio m' q'
    ofRatio negative (a * c) (b * d)
  | x, _ => x

def div : Double → Double → Double
  | .finite negative m q, .finite _ m' q' =>
    let (a, b) := ratio m q
    let (c, d) := ratio m' q'
    ofRatio negative (a * d) (b * c)
  | x, _ => x

end Double

end SchemaBindings
