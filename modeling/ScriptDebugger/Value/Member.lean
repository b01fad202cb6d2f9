import ScriptDebugger.Value.Fault

/-!
# Members

Reading and writing `receiver[key]`, where the key is always a text. A method
is a new built-in, bound to its receiver, each time it is read.
-/

namespace ScriptDebugger

/-- A canonical array index: digits without leading zeros, below `2 ^ 64`. -/
def arrayIndex? (key : String) : Option Nat :=
  match key.toList with
  | [] => none
  | ['0'] => some 0
  | '0' :: _ => none
  | cs =>
    if cs.all Number.isDigit then
      let n := Number.ofDigits 10 cs
      if n < UInt64.size then some n else none
    else none

/-- The largest index that an assignment may grow an array to. -/
def maxArrayIndex : Nat := Nat.pow 2 24

/-- What a key leads to: a value, or a method that is bound to the receiver when it is read. -/
inductive Member where
  | plain (v : Value)
  | method (builtin : Builtin)
  deriving Repr, Inhabited

/-- A method if there is one of that name, and otherwise nothing. -/
def Member.ofMethod : Option Builtin → Member
  | some builtin => .method builtin
  | none => .plain .undefined

namespace Store

/-- Reads `receiver[key]`. -/
def getMember (s : Store) (receiver : Value) (key : String) : Except Fault Member :=
  match receiver with
  | .undefined | .null => .error (.cannotRead (s.display receiver) key)
  | .array ref =>
    if key = "length" then .ok (.plain (.number (Float.ofNat (s.array ref).size)))
    else
      match arrayIndex? key with
      | some i => .ok (.plain (((s.array ref)[i]?).getD .undefined))
      | none => .ok (.ofMethod ((ArrayMethod.ofName? key).map .array))
  | .string t =>
    if key = "length" then .ok (.plain (.number (Float.ofNat t.length)))
    else
      match arrayIndex? key with
      | some i => .ok (.plain (((t.toList[i]?).map fun c => .string c.toString).getD .undefined))
      | none => .ok (.ofMethod ((StringMethod.ofName? key).map .string))
  | .object ref => .ok (.plain (((s.record ref).get? key).getD .undefined))
  | .error ref =>
    if key = "name" then .ok (.plain (.string (s.error ref).name))
    else if key = "message" then .ok (.plain (.string (s.error ref).message))
    else .ok (.plain .undefined)
  | .function ref =>
    if key = "name" then .ok (.plain (.string ((s.closure ref).name.getD "")))
    else if key = "length" then .ok (.plain (.number (Float.ofNat (s.closure ref).params.length)))
    else .ok (.plain .undefined)
  | .builtin ref =>
    if key = "name" then .ok (.plain (.string (s.builtin ref).builtin.name))
    else .ok (.plain .undefined)
  | .bool _ | .number _ => .ok (.plain .undefined)

/-- Element `i` replaced; an array that is too short grows. -/
def setElement (items : Array Value) (i : Nat) (v : Value) : Array Value :=
  if i < items.size then items.setIfInBounds i v
  else (items ++ Array.replicate (i - items.size) Value.undefined).push v

/-- Why `receiver[key]` cannot be written. -/
def setMemberFault? (s : Store) (receiver : Value) (key : String) : Option Fault :=
  match receiver with
  | .undefined | .null => some (.cannotSet (s.display receiver) key)
  | .array _ =>
    match arrayIndex? key with
    | some i => if maxArrayIndex < i then some .invalidArrayLength else none
    | none => none
  | _ => none

/-- Writes `receiver[key] = v`, where nothing keeps it from being written. What has no members of
its own to set stays as it is. -/
def setMember (s : Store) (receiver : Value) (key : String) (v : Value) : Store :=
  match receiver with
  | .array ref =>
    match arrayIndex? key with
    | some i => s.setArray ref fun items => setElement items i v
    | none => s
  | .object ref => s.setRecord ref fun r => r.set key v
  | _ => s

end Store

end ScriptDebugger
