import ScriptDebugger.Number.Shortest

/-!
# Number text

How a number is written for the reader of a script: shortest digits, in
positional notation from `10 ^ -6` up to but excluding `10 ^ 21` and with an
exponent elsewhere. Both zeros are written `0`.
-/

namespace ScriptDebugger.Number

/-- The powers of ten from `lowest` up to but excluding `highest` are written positionally; an
exponent that is not negative carries `plus`. -/
structure Notation where
  lowest : Int
  highest : Int
  plus : String

/-- The notation of scripts. -/
def scriptNotation : Notation := { lowest := -6, highest := 21, plus := "+" }

def zeros (n : Nat) : String := String.ofList (List.replicate n '0')

/-- The digits `ds` with a point after its first `n` characters. -/
def withPoint (ds : String) (n : Nat) : String :=
  String.ofList (ds.toList.take n) ++ "." ++ String.ofList (ds.toList.drop n)

/-- Digits `ds` whose first stands for `10 ^ power`. -/
def positional (ds : String) (power : Int) : String :=
  if power < 0 then "0." ++ zeros (power.natAbs - 1) ++ ds
  else
    let whole := power.toNat + 1
    if ds.length ≤ whole then ds ++ zeros (whole - ds.length) else withPoint ds whole

def exponential (plus ds : String) (power : Int) : String :=
  let mantissa := if ds.length ≤ 1 then ds else withPoint ds 1
  mantissa ++ "e" ++ (if power < 0 then "" else plus) ++ toString power

/-- The text of a positive finite number `m · 2 ^ e`. -/
def Notation.magnitude (style : Notation) (m : Nat) (e : Int) : String :=
  let d := Shortest.decimal m e
  let ds := toString d.digits
  let power := d.exponent + Int.ofNat ds.length - 1
  if style.lowest ≤ power ∧ power < style.highest then positional ds power
  else exponential style.plus ds power

/-- The text of a number. -/
def format (x : Float) : String :=
  if x.isNaN then "NaN"
  else
    let p := Binary64.parts x
    if p.mantissa = 0 then "0"
    else
      let sign := if p.negative then "-" else ""
      if x.isInf then sign ++ "Infinity" else sign ++ scriptNotation.magnitude p.mantissa p.exponent

end ScriptDebugger.Number
