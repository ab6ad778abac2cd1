import SchemaBindings.Number.Double

namespace SchemaBindings

def decimalValue (digits : List Char) : Nat :=
  digits.foldl (fun n c => 10 * n + (c.toNat - '0'.toNat)) 0

def signedDecimal? (plusAllowed : Bool) : List Char → Option Int
  | '-' :: cs => if cs ≠ [] ∧ cs.all Char.isDigit then some (-(decimalValue cs : Int)) else none
  | '+' :: cs =>
    if plusAllowed ∧ cs ≠ [] ∧ cs.all Char.isDigit then some (decimalValue cs) else none
  | cs => if cs ≠ [] ∧ cs.all Char.isDigit then some (decimalValue cs) else none

/-- Whether a whole number fits into 64 bits with its sign. -/
def isWord (n : Int) : Bool :=
  -9223372036854775808 ≤ n && n ≤ 9223372036854775807

namespace Double

structure Parts where
  whole : List Char
  fraction : List Char
  exponent : Int
  deriving Repr, DecidableEq

/-- The parts of a decimal without sign. At least one digit must stand before the exponent. -/
def parts? (cs : List Char) : Option Parts :=
  let whole := cs.takeWhile Char.isDigit
  let afterWhole := cs.dropWhile Char.isDigit
  let (fraction, rest) :=
    match afterWhole with
    | '.' :: ds => (ds.takeWhile Char.isDigit, ds.dropWhile Char.isDigit)
    | ds => ([], ds)
  if whole.isEmpty && fraction.isEmpty then none
  else match rest with
    | [] => some ⟨whole, fraction, 0⟩
    | c :: ds =>
      if c == 'e' || c == 'E' then (signedDecimal? true ds).map fun e => ⟨whole, fraction, e⟩
      else none

def Parts.value (negative : Bool) (p : Parts) : Double :=
  ofDecimal negative (decimalValue (p.whole ++ p.fraction)) (p.exponent - p.fraction.length)

def unsigned? (negative : Bool) (cs : List Char) : Option Double :=
  let word := String.ofList (cs.map Char.toLower)
  if word == "inf" || word == "infinity" then some (.infinite negative)
  else if word == "nan" then some .notANumber
  else (parts? cs).map (Parts.value negative)

def parse? : List Char → Option Double
  | '-' :: cs => unsigned? true cs
  | '+' :: cs => unsigned? false cs
  | cs => unsigned? false cs

end Double

end SchemaBindings
