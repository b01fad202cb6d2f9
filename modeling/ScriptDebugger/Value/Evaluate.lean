import ScriptDebugger.Value.Convert

/-!
# Operators on values

No operator fails: values of different types are converted. `+` joins texts as
soon as one side is a text or converts to one; comparison is by characters
between two texts and by number otherwise.
-/

namespace ScriptDebugger.Store

/-- Whether `+` joins texts because of this side. -/
def joinsText : Value → Bool
  | .string _ | .array _ | .object _ | .function _ | .builtin _ | .error _ => true
  | .undefined | .null | .bool _ | .number _ => false

def add (s : Store) (a b : Value) : Value :=
  if joinsText a || joinsText b then .string (s.display a ++ s.display b)
  else .number (s.toNumber a + s.toNumber b)

/-- Compares two texts by `ofText`, anything else by `ofNumber`. -/
def compare (s : Store) (ofText : String → String → Bool) (ofNumber : Float → Float → Bool)
    (a b : Value) : Bool :=
  match a, b with
  | .string x, .string y => ofText x y
  | _, _ => ofNumber (s.toNumber a) (s.toNumber b)

def evalBinary (s : Store) (op : BinaryOp) (a b : Value) : Value :=
  match op with
  | .add => s.add a b
  | .sub => .number (s.toNumber a - s.toNumber b)
  | .mul => .number (s.toNumber a * s.toNumber b)
  | .div => .number (s.toNumber a / s.toNumber b)
  | .rem => .number (Binary64.remainder (s.toNumber a) (s.toNumber b))
  | .less => .bool (s.compare (· < ·) (· < ·) a b)
  | .lessEq => .bool (s.compare (fun x y => !(y < x)) (· ≤ ·) a b)
  | .greater => .bool (s.compare (fun x y => y < x) (fun x y => y < x) a b)
  | .greaterEq => .bool (s.compare (fun x y => !(x < y)) (fun x y => y ≤ x) a b)
  | .looseEq => .bool (s.looseEq a b)
  | .looseNotEq => .bool (!s.looseEq a b)
  | .strictEq => .bool (a.strictEq b)
  | .strictNotEq => .bool (!a.strictEq b)

def evalUnary (s : Store) (op : UnaryOp) (v : Value) : Value :=
  match op with
  | .not => .bool !v.isTruthy
  | .neg => .number (-s.toNumber v)
  | .plus => .number (s.toNumber v)
  | .typeOf => .string v.typeOf

/-- The old and the new number of `++` and `--`. -/
def evalUpdate (s : Store) (op : UpdateOp) (v : Value) : Float × Float :=
  let old := s.toNumber v
  match op with
  | .increment => (old, old + 1)
  | .decrement => (old, old - 1)

end ScriptDebugger.Store
