import ScriptDebugger.Number.Binary64

/-!
# Shortest decimal digits

The shortest digits of a double are the fewest that read back as the same
double, and of those the nearest to it; of two equally near the greater is
taken. All arithmetic is exact, on natural numbers.
-/

namespace ScriptDebugger.Shortest

/-- The number `digits · 10 ^ exponent`. -/
structure Decimal where
  digits : Nat
  exponent : Int
  deriving DecidableEq, Repr

/-- Decimal digits of `n`; zero has none. -/
def digitCount (n : Nat) : Nat :=
  if h : n = 0 then 0 else digitCount (n / 10) + 1
  termination_by n
  decreasing_by exact Nat.div_lt_self (Nat.pos_of_ne_zero h) (by decide)

/-- The greatest `k` with `10 ^ k ≤ num / den`. -/
def magnitude (num den : Nat) : Int :=
  if den ≤ num then Int.ofNat (digitCount (num / den)) - 1
  else - Int.ofNat (digitCount ((den + num - 1) / num - 1))

/-- The number `num / den · 10 ^ e` as a quotient of natural numbers. -/
def scaleTen (num den : Nat) (e : Int) : Nat × Nat :=
  if e < 0 then (num, den * Nat.pow 10 e.natAbs) else (num * Nat.pow 10 e.natAbs, den)

/-- A double's neighbourhood over the common denominator `den`: the numbers between `low` and
`high` round to `value`, and so do the two ends if `closed`. -/
structure Interval where
  low : Nat
  value : Nat
  high : Nat
  den : Nat
  closed : Bool
  deriving Repr

/-- The interval of `m · 2 ^ e`. Below a power of two the neighbour is half as far away as above. -/
def interval (m : Nat) (e : Int) : Interval :=
  let narrow := m = Nat.pow 2 Binary64.fractionBits ∧ -1074 < e
  let below := if narrow then 1 else 2
  let (value, den) := Binary64.scale (4 * m) 4 e
  let (unit, _) := Binary64.scale 1 4 e
  { low := value - below * unit, value, high := value + 2 * unit, den, closed := m % 2 = 0 }

/-- Whether the fraction `n / d` rounds to the interval's value. -/
def Interval.holds (i : Interval) (n d : Nat) : Bool :=
  if i.closed then i.low * d ≤ n * i.den && n * i.den ≤ i.high * d
  else i.low * d < n * i.den && n * i.den < i.high * d

/-- The multiple of `10 ^ p` that lies in the interval and is nearest to its value, as the
number of times that `10 ^ p` goes into it. -/
def onGrid? (i : Interval) (p : Int) : Option Nat :=
  let (n, d) := scaleTen i.value i.den (-p)
  let down := n / d
  let inside (k : Nat) : Bool := let (a, b) := scaleTen k 1 p; i.holds a b
  match inside down, inside (down + 1) with
  | false, false => none
  | true, false => some down
  | false, true => some (down + 1)
  | true, true => some (if 2 * (n % d) < d then down else down + 1)

/-- Tries grids with one digit, two digits and so on; `fuel` bounds their number. -/
def search (i : Interval) (top : Int) : (fuel : Nat) → (count : Nat) → Decimal
  | 0, count =>
    let exponent := top - Int.ofNat count
    { digits := (onGrid? i exponent).getD 0, exponent }
  | fuel + 1, count =>
    match onGrid? i (top - Int.ofNat count) with
    | some digits => { digits, exponent := top - Int.ofNat count }
    | none => search i top fuel (count + 1)

/-- Moves trailing zeros of the digits into the exponent. -/
def dropZeros : (fuel : Nat) → Decimal → Decimal
  | 0, d => d
  | fuel + 1, d =>
    if d.digits ≠ 0 ∧ d.digits % 10 = 0 then
      dropZeros fuel { digits := d.digits / 10, exponent := d.exponent + 1 }
    else d

/-- Shortest digits of `m · 2 ^ e`, for `0 < m`: seventeen always suffice. -/
def decimal (m : Nat) (e : Int) : Decimal :=
  let i := interval m e
  dropZeros 20 (search i (magnitude i.value i.den) 17 0)

end ScriptDebugger.Shortest
