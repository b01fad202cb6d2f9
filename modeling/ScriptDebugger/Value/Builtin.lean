import ScriptDebugger.Text.Basic
import ScriptDebugger.Value.Fault

/-!
# Built-in functions

Those that call no function of the script: they turn arguments into a result
in one step. `forEach`, `map` and `reduce` are not among them.
-/

namespace ScriptDebugger

/-- An argument; one that is missing has no value. -/
def argument (args : List Value) (i : Nat) : Value := args.getD i .undefined

/-- A natural number from one that is not negative, cut off at `2 ^ 64 - 1`. -/
def floatToNat (x : Float) : Nat := x.toUInt64.toNat

/-- The first offset, counted from `offset` on, at which `needle` stands in a row of bytes. -/
def findBytes (needle : List UInt8) : (offset : Nat) → List UInt8 → Option Nat
  | offset, [] => if needle.isEmpty then some offset else none
  | offset, b :: bs =>
    if needle.isPrefixOf (b :: bs) then some offset else findBytes needle (offset + 1) bs

/-- The first place at which `needle` stands in a text. It is searched for by bytes; a place counts
the characters before it. -/
def findText? (needle text : String) : Option Nat :=
  (findBytes needle.toUTF8.data.toList 0 text.toUTF8.data.toList).map fun offset =>
    (takeBytes offset text.toList).length

namespace Store

/-- The numbers of the arguments, combined from `start` on; one that is no number makes the
result none. -/
def foldNumbers (s : Store) (args : List Value) (start : Float) (pick : Float → Float → Float) :
    Float :=
  (args.map s.toNumber).foldl
    (fun acc x => if acc.isNaN || x.isNaN then Binary64.nan else pick acc x) start

/-- A bound of `slice` on `length` elements: a negative one counts from the end. -/
def relativeIndex (s : Store) (v : Value) (length whenMissing : Nat) : Nat :=
  match v with
  | .undefined => whenMissing
  | _ =>
    let x := s.toNumber v
    if x.isNaN then 0
    else
      let x := Binary64.truncate x
      if x < 0 then
        let fromEnd := Float.ofNat length + x
        if fromEnd < 0 then 0 else floatToNat fromEnd
      else if x < Float.ofNat length then floatToNat x
      else length

/-- The error object that a constructor makes from its message. -/
def constructError (s : Store) (kind : ErrorKind) (message : Value) : ErrorObject :=
  let text := match message with
    | .undefined => ""
    | v => s.display v
  { name := kind.name, message := text }

def callStringMethod (s : Store) (method : StringMethod) (text : String) (arg : Value) : Value :=
  match method with
  | .toUpperCase => .string (String.ofList (Text.toUpper text.toList))
  | .toLowerCase => .string (String.ofList (Text.toLower text.toList))
  | .charAt =>
    let x := s.toNumber arg
    let i := if x.isNaN then 0 else Binary64.truncate x
    if 0 ≤ i then .string (((text.toList[floatToNat i]?).map Char.toString).getD "")
    else .string ""
  | .indexOf =>
    match findText? (s.display arg) text with
    | some i => .number (Float.ofNat i)
    | none => .number (-1)

/-- What an array method that has no callback does: the new store and the result. -/
def callArrayMethod (s : Store) (method : ArrayMethod) (ref : Ref) (args : List Value) :
    Store × Value :=
  match method with
  | .push =>
    let s := s.setArray ref fun items => items ++ args.toArray
    (s, .number (Float.ofNat (s.array ref).size))
  | .pop =>
    let last := ((s.array ref).back?).getD .undefined
    (s.setArray ref Array.pop, last)
  | .indexOf =>
    match (s.array ref).findIdx? fun v => v.strictEq (argument args 0) with
    | some i => (s, .number (Float.ofNat i))
    | none => (s, .number (-1))
  | .join =>
    let separator := match argument args 0 with
      | .undefined => ","
      | v => s.display v
    (s, .string (s.join (s.array ref) separator))
  | .slice =>
    let size := (s.array ref).size
    let start := s.relativeIndex (argument args 0) size 0
    let stop := s.relativeIndex (argument args 1) size size
    s.newArray ((s.array ref).extract start (Nat.max start stop))
  | .forEach | .map | .reduce => (s, .undefined)

end Store

end ScriptDebugger
