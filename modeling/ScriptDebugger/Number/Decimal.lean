import ScriptDebugger.Number.Binary64

/-!
# Reading numbers

Decimal numbers with an optional fraction and exponent, and hexadecimal
natural numbers below `2 ^ 64`. Both are read exactly and then rounded once,
to the nearest double. The infinities and what is not a number have words of
their own among the decimal numbers.
-/

namespace ScriptDebugger.Number

def isDigit (c : Char) : Bool := decide ('0' ≤ c ∧ c ≤ '9')

def isHexDigit (c : Char) : Bool :=
  isDigit c || decide ('a' ≤ c ∧ c ≤ 'f') || decide ('A' ≤ c ∧ c ≤ 'F')

/-- Value of a hexadecimal digit, which decimal digits are too. -/
def digitValue (c : Char) : Nat :=
  if isDigit c then c.toNat - 48
  else if 'a' ≤ c then c.toNat - 87
  else c.toNat - 55

/-- The number that digits write in base `base`. -/
def ofDigits (base : Nat) (ds : List Char) : Nat :=
  ds.foldl (fun n c => base * n + digitValue c) 0

/-- A decimal numeral: its digits without the point, and the power of ten of the last one. -/
structure Numeral where
  negative : Bool
  digits : List Char
  exponent : Int
  deriving DecidableEq, Repr

/-- An optional sign, and the rest. -/
def readSign : List Char → Bool × List Char
  | '-' :: cs => (true, cs)
  | '+' :: cs => (false, cs)
  | cs => (false, cs)

/-- An exponent part, `e` or `E` with at least one digit after an optional sign, up to the end. -/
def readExponent? : List Char → Option Int
  | [] => some 0
  | c :: cs =>
    if c = 'e' ∨ c = 'E' then
      let (negative, ds) := readSign cs
      if ds.isEmpty || !ds.all isDigit then none
      else some (if negative then - Int.ofNat (ofDigits 10 ds) else Int.ofNat (ofDigits 10 ds))
    else none

/-- The digits behind a point, none without one, and the rest. -/
def readFraction : List Char → List Char × List Char
  | '.' :: cs => (cs.takeWhile isDigit, cs.dropWhile isDigit)
  | cs => ([], cs)

/-- Digits with at most one point among them, at least one digit, and an optional exponent. -/
def readNumeral? (cs : List Char) : Option Numeral :=
  let (negative, body) := readSign cs
  let whole := body.takeWhile isDigit
  let (fraction, rest) := readFraction (body.dropWhile isDigit)
  if whole.isEmpty && fraction.isEmpty then none
  else (readExponent? rest).map fun e =>
    { negative, digits := whole ++ fraction, exponent := e - Int.ofNat fraction.length }

/-- The double nearest to a numeral. Beyond the powers of ten that a double reaches no power
is computed. -/
def Numeral.toFloat (n : Numeral) : Float :=
  let m := ofDigits 10 n.digits
  let top := Int.ofNat (n.digits.dropWhile (· = '0')).length + n.exponent
  if m = 0 ∨ top < -400 then Binary64.nearest n.negative 0 1
  else if 400 < top then Binary64.nearest n.negative (Nat.pow 10 400) 1
  else if n.exponent < 0 then Binary64.nearest n.negative m (Nat.pow 10 n.exponent.natAbs)
  else Binary64.nearest n.negative (m * Nat.pow 10 n.exponent.natAbs) 1

def readDecimal? (cs : List Char) : Option Float := (readNumeral? cs).map Numeral.toFloat

/-- A word for an infinity or for what is not a number, in letters of either case, after an
optional sign. -/
def readWord? (cs : List Char) : Option Float :=
  let (negative, body) := readSign cs
  let word := body.map Char.toLower
  if word = "inf".toList ∨ word = "infinity".toList then
    some (if negative then Binary64.negInfinity else Binary64.infinity)
  else if word = "nan".toList then some Binary64.nan
  else none

/-- A decimal number or a word that stands for a double. -/
def readFloat? (cs : List Char) : Option Float := (readDecimal? cs).or (readWord? cs)

/-- What follows an optional plus sign. -/
def dropPlus : List Char → List Char
  | '+' :: cs => cs
  | cs => cs

/-- After an optional plus sign at least one hexadecimal digit, nothing else, and a value below
`2 ^ 64`. -/
def readHex? (cs : List Char) : Option Float :=
  let ds := dropPlus cs
  if ds.isEmpty || !ds.all isHexDigit then none
  else
    let n := ofDigits 16 ds
    if n < UInt64.size then some (Binary64.ofNat n) else none

end ScriptDebugger.Number
