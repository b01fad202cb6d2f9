/-!
# Doubles as dyadic numbers

A finite double is a sign and `m · 2 ^ e` with natural `m`; `parts` reads both
off its bits. In the other direction `nearest` rounds an exact quotient of
natural numbers to the nearest double, a tie going to the even neighbour.
`remainder` is the exact remainder of a division that rounds toward zero.
-/

namespace ScriptDebugger.Binary64

/-- A sign and a magnitude `mantissa · 2 ^ exponent`. -/
structure Parts where
  negative : Bool
  mantissa : Nat
  exponent : Int
  deriving DecidableEq, Repr

/-- Fraction bits of a double; the least exponent is `-1074`. -/
def fractionBits : Nat := 52

/-- Meaningful only of a finite double. -/
def parts (x : Float) : Parts :=
  let bits := x.toBits.toNat
  let field := bits / Nat.pow 2 fractionBits % Nat.pow 2 11
  let fraction := bits % Nat.pow 2 fractionBits
  { negative := bits / Nat.pow 2 63 == 1
    mantissa := if field = 0 then fraction else fraction + Nat.pow 2 fractionBits
    exponent := Int.ofNat (if field = 0 then 1 else field) - 1075 }

/-- The natural number nearest to `num / den`, the even one of two. -/
def roundEven (num den : Nat) : Nat :=
  let q := num / den
  let twice := 2 * (num % den)
  if twice < den then q
  else if den < twice then q + 1
  else q + q % 2

/-- The number `(num · 2 ^ e) / den` as a quotient of natural numbers. -/
def scale (num den : Nat) (e : Int) : Nat × Nat :=
  if e < 0 then (num, den * Nat.pow 2 e.natAbs) else (num * Nat.pow 2 e.natAbs, den)

/-- The least exponent at which `num / den` needs no more than 53 bits, but at least `-1074`. -/
def unitExponent (num den : Nat) : Int :=
  let guess := max (Int.ofNat num.log2 - Int.ofNat den.log2 - 53) (-1074)
  let (n, d) := scale num den (-guess)
  if n / d < Nat.pow 2 53 then guess else guess + 1

def infinityBits : Nat := 2047 * Nat.pow 2 fractionBits

/-- Bits of the double nearest to `num / den`, for `0 < den`. The hidden bit of a normal
mantissa carries into the exponent field, so normal and subnormal results need no cases. -/
def nearestBits (num den : Nat) : Nat :=
  if num = 0 then 0
  else
    let unit := unitExponent num den
    let (n, d) := scale num den (-unit)
    min infinityBits ((unit + 1074).toNat * Nat.pow 2 fractionBits + roundEven n d)

/-- The double with the given sign nearest to `num / den`. -/
def nearest (negative : Bool) (num den : Nat) : Float :=
  Float.ofBits (UInt64.ofNat (nearestBits num den + (if negative then Nat.pow 2 63 else 0)))

/-- The double nearest to a natural number. -/
def ofNat (n : Nat) : Float := nearest false n 1

def nan : Float := Float.ofBits 0x7ff8000000000000

def infinity : Float := Float.ofBits 0x7ff0000000000000

def negInfinity : Float := Float.ofBits 0xfff0000000000000

/-- The part of `x` before the point. -/
def truncate (x : Float) : Float := if x < 0 then x.ceil else x.floor

/-- The difference `x - y · n` for the whole number `n` nearest to `x / y` on the side of zero;
it is exact and has the sign of `x`. -/
def remainder (x y : Float) : Float :=
  if !x.isFinite || y.isNaN || y == 0 then nan
  else if !y.isFinite then x
  else
    let a := parts x
    let b := parts y
    let unit := min a.exponent b.exponent
    let above (p : Parts) : Nat := p.mantissa * Nat.pow 2 (p.exponent - unit).toNat
    let r := above a % above b
    let (n, d) := scale r 1 unit
    nearest a.negative n d

end ScriptDebugger.Binary64
