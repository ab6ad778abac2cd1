import SchemaBindings.Json.Basic
import SchemaBindings.Number.Reading
import SchemaBindings.Text.Hex

namespace SchemaBindings.Json

def isBlankChar (c : Char) : Bool :=
  c == ' ' || c == '\n' || c == '\t' || c == '\r'

def skipBlanks (cs : List Char) : List Char :=
  cs.dropWhile isBlankChar

def simpleEscape? : Char → Option Char
  | '"' => some '"'
  | '\\' => some '\\'
  | '/' => some '/'
  | 'b' => some (Char.ofNat 0x08)
  | 'f' => some (Char.ofNat 0x0C)
  | 'n' => some '\n'
  | 'r' => some '\r'
  | 't' => some '\t'
  | _ => none

/-- The rest of a string after its opening quote, as code units. A character beyond the first plane
counts as one unit when it is written as itself and as two when it is written in escapes. -/
def stringUnits : List Char → Option (List Nat × List Char)
  | [] => none
  | '"' :: cs => some ([], cs)
  | '\\' :: 'u' :: a :: b :: c :: d :: cs => do
    let unit ← Text.hexDigits? [a, b, c, d]
    let (units, rest) ← stringUnits cs
    some (unit :: units, rest)
  | '\\' :: c :: cs => do
    let escaped ← simpleEscape? c
    let (units, rest) ← stringUnits cs
    some (escaped.toNat :: units, rest)
  | c :: cs =>
    if c.toNat < 0x20 then none
    else do
      let (units, rest) ← stringUnits cs
      some (c.toNat :: units, rest)

def isHighSurrogate (unit : Nat) : Bool :=
  0xD800 ≤ unit && unit < 0xDC00

def isLowSurrogate (unit : Nat) : Bool :=
  0xDC00 ≤ unit && unit < 0xE000

/-- The characters of code units. A surrogate must be one of a pair. -/
def joinUnits : List Nat → Option (List Char)
  | [] => some []
  | high :: low :: units =>
    if isHighSurrogate high then
      if isLowSurrogate low then
        (joinUnits units).map
          (Char.ofNat (0x10000 + (high - 0xD800) * 0x400 + (low - 0xDC00)) :: ·)
      else none
    else if isLowSurrogate high then none
    else (joinUnits (low :: units)).map (Char.ofNat high :: ·)
  | [unit] => if isHighSurrogate unit || isLowSurrogate unit then none else some [Char.ofNat unit]

def readString (cs : List Char) : Option (String × List Char) := do
  let (units, rest) ← stringUnits cs
  let chars ← joinUnits units
  some (.ofList chars, rest)

/-- The largest whole number that a reader collects digit by digit. -/
def maxUnsigned : Nat := 18446744073709551615

/-- The largest whole number that has an exact negative. -/
def maxNegative : Nat := 9223372036854775808

/-- Collects decimal digits as long as their number is not larger than `maxUnsigned`. Gives the
number, how many digits it holds, and the digits left over. -/
def collectDigits (n count : Nat) : List Char → Nat × Nat × List Char
  | [] => (n, count, [])
  | c :: cs =>
    let next := 10 * n + (c.toNat - '0'.toNat)
    if next ≤ maxUnsigned then collectDigits next (count + 1) cs else (n, count, c :: cs)

/-- The number `significand * 10 ^ exponent`, scaled in steps that each round once. There is none
beyond the largest number. -/
def scaleDecimal (negative : Bool) (significand : Nat) (exponent : Int) : Option Double :=
  let start := Double.ofRatio negative significand 1
  if exponent < 0 then
    let steps := (-exponent).toNat
    if significand = 0 then some start
    else if steps ≤ 308 then some (start.div (.powerOfTen steps))
    else if steps ≤ 616 then
      some ((start.div (.powerOfTen 308)).div (.powerOfTen (steps - 308)))
    else some (.zero negative)
  else if exponent ≤ 308 then
    let x := start.mul (.powerOfTen exponent.toNat)
    if x.isFinite then some x else none
  else if significand = 0 then some start
  else none

def readExponent (cs : List Char) : Option (Int × List Char) :=
  match cs with
  | c :: rest =>
    if c == 'e' || c == 'E' then
      let (negative, ds) :=
        match rest with
        | '-' :: ds => (true, ds)
        | '+' :: ds => (false, ds)
        | ds => (false, ds)
      let digits := ds.takeWhile Char.isDigit
      if digits.isEmpty then none
      else
        let n : Int := decimalValue digits
        some (if negative then -n else n, ds.dropWhile Char.isDigit)
    else some (0, cs)
  | [] => some (0, [])

/-- A number without its minus sign. Digits beyond the largest whole number count as zeros. -/
def readUnsigned (negative : Bool) (cs : List Char) : Option (Json × List Char) :=
  let whole := cs.takeWhile Char.isDigit
  let afterWhole := cs.dropWhile Char.isDigit
  if whole.isEmpty || (whole.head? == some '0' && whole.length ≠ 1) then none
  else
    let (n, _, excess) := collectDigits 0 0 whole
    match afterWhole with
    | '.' :: ds => do
      let fraction := ds.takeWhile Char.isDigit
      if fraction.isEmpty then none
      else
        let (m, count, _) := collectDigits n 0 fraction
        let (e, rest) ← readExponent (ds.dropWhile Char.isDigit)
        let x ← scaleDecimal negative m (excess.length - count + e)
        some (.float x, rest)
    | c :: _ =>
      if c == 'e' || c == 'E' then do
        let (e, rest) ← readExponent afterWhole
        let x ← scaleDecimal negative n (excess.length + e)
        some (.float x, rest)
      else wholeNumber n excess afterWhole
    | [] => wholeNumber n excess afterWhole
where
  /-- Whole numbers stay exact within 64 bits; minus zero is not a whole number. -/
  wholeNumber (n : Nat) (excess rest : List Char) : Option (Json × List Char) :=
    if excess ≠ [] then (scaleDecimal negative n excess.length).map fun x => (.float x, rest)
    else if !negative then some (.int n, rest)
    else if n = 0 ∨ maxNegative < n then some (.float (Double.ofRatio true n 1), rest)
    else some (.int (-n), rest)

def readNumber : List Char → Option (Json × List Char)
  | '-' :: cs => readUnsigned true cs
  | cs => readUnsigned false cs

mutual

/-- A value. Each nesting takes at least one character, so `depth` may be the length of the text. -/
def readValue : (depth : Nat) → List Char → Option (Json × List Char)
  | 0, _ => none
  | depth + 1, cs =>
    match skipBlanks cs with
    | 'n' :: 'u' :: 'l' :: 'l' :: rest => some (null, rest)
    | 't' :: 'r' :: 'u' :: 'e' :: rest => some (bool true, rest)
    | 'f' :: 'a' :: 'l' :: 's' :: 'e' :: rest => some (bool false, rest)
    | '"' :: rest => (readString rest).map fun (s, rest) => (string s, rest)
    | '[' :: rest =>
      match skipBlanks rest with
      | ']' :: rest => some (array [], rest)
      | rest => (readItems depth rest).map fun (items, rest) => (array items, rest)
    | '\x7b' :: rest =>
      match skipBlanks rest with
      | '\x7d' :: rest => some (object [], rest)
      | rest => (readMembers depth rest).map fun (members, rest) => (object members, rest)
    | rest => readNumber rest

def readItems : (depth : Nat) → List Char → Option (List Json × List Char)
  | 0, _ => none
  | depth + 1, cs => do
    let (item, rest) ← readValue depth cs
    match skipBlanks rest with
    | ']' :: rest => some ([item], rest)
    | ',' :: rest =>
      let (items, rest) ← readItems depth rest
      some (item :: items, rest)
    | _ => none

def readMembers : (depth : Nat) → List Char → Option (List (String × Json) × List Char)
  | 0, _ => none
  | depth + 1, cs =>
    match skipBlanks cs with
    | '"' :: rest => do
      let (key, rest) ← readString rest
      match skipBlanks rest with
      | ':' :: rest =>
        let (value, rest) ← readValue depth rest
        match skipBlanks rest with
        | '\x7d' :: rest => some ([(key, value)], rest)
        | ',' :: rest =>
          let (members, rest) ← readMembers depth rest
          some ((key, value) :: members, rest)
        | _ => none
      | _ => none
    | _ => none

end

def parse? (cs : List Char) : Option Json :=
  match readValue (2 * cs.length + 1) cs with
  | some (value, rest) => if (skipBlanks rest).isEmpty then some value else none
  | none => none

end SchemaBindings.Json
