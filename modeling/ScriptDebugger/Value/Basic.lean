import ScriptDebugger.Syntax.Tree

/-!
# Values

What an expression of a script evaluates to. Arrays, objects, functions,
built-ins and errors have an identity: the value is a reference, and what it
refers to is kept in the store.
-/

namespace ScriptDebugger

/-- A place in the store. -/
abbrev Ref := Nat

/-- A scope in the store. -/
abbrev ScopeId := Nat

inductive Value where
  | undefined
  | null
  | bool (b : Bool)
  | number (x : Float)
  | string (s : String)
  | array (ref : Ref)
  | object (ref : Ref)
  | function (ref : Ref)
  | builtin (ref : Ref)
  | error (ref : Ref)
  deriving DecidableEq, Repr, Inhabited

/-- A function of the script, closed over the scope it was made in. -/
structure Closure where
  name : Option String
  params : List String
  body : NodeId
  scope : ScopeId
  /-- The whole declaration or expression. -/
  span : Span
  /-- The source text of `span`. -/
  text : String
  deriving Repr, Inhabited

inductive ErrorKind where
  | error | typeError | rangeError | referenceError
  deriving DecidableEq, Repr, Inhabited

namespace ErrorKind

def name : ErrorKind → String
  | error => "Error"
  | typeError => "TypeError"
  | rangeError => "RangeError"
  | referenceError => "ReferenceError"

def all : List ErrorKind := [error, typeError, rangeError, referenceError]

end ErrorKind

structure ErrorObject where
  name : String
  message : String
  deriving DecidableEq, Repr, Inhabited

inductive ArrayMethod where
  | push | pop | indexOf | join | slice | forEach | map | reduce
  deriving DecidableEq, Repr, Inhabited

namespace ArrayMethod

def name : ArrayMethod → String
  | push => "push"
  | pop => "pop"
  | indexOf => "indexOf"
  | join => "join"
  | slice => "slice"
  | forEach => "forEach"
  | map => "map"
  | reduce => "reduce"

def all : List ArrayMethod := [push, pop, indexOf, join, slice, forEach, map, reduce]

def ofName? (name : String) : Option ArrayMethod := all.find? fun m => m.name == name

/-- Methods that call a function for each element. -/
def hasCallback : ArrayMethod → Bool
  | forEach | map | reduce => true
  | _ => false

end ArrayMethod

inductive StringMethod where
  | toUpperCase | toLowerCase | charAt | indexOf
  deriving DecidableEq, Repr, Inhabited

namespace StringMethod

def name : StringMethod → String
  | toUpperCase => "toUpperCase"
  | toLowerCase => "toLowerCase"
  | charAt => "charAt"
  | indexOf => "indexOf"

def all : List StringMethod := [toUpperCase, toLowerCase, charAt, indexOf]

def ofName? (name : String) : Option StringMethod := all.find? fun m => m.name == name

end StringMethod

/-- Functions that are not written in the script. -/
inductive Builtin where
  | log | floor | max | min | abs
  | construct (kind : ErrorKind)
  | array (method : ArrayMethod)
  | string (method : StringMethod)
  deriving DecidableEq, Repr, Inhabited

def Builtin.name : Builtin → String
  | log => "log"
  | floor => "floor"
  | max => "max"
  | min => "min"
  | abs => "abs"
  | construct kind => kind.name
  | array method => method.name
  | string method => method.name

/-- A built-in together with the value it is a method of. -/
structure BoundBuiltin where
  builtin : Builtin
  receiver : Option Value
  deriving DecidableEq, Repr, Inhabited

/-- Properties in the order in which their keys were first set. -/
structure Record where
  properties : List (String × Value)
  deriving Repr, Inhabited

namespace Record

def empty : Record := ⟨[]⟩

/-- The value of the first entry with a key. -/
def valueIn? (key : String) : List (String × Value) → Option Value
  | [] => none
  | (k, v) :: rest => if k = key then some v else valueIn? key rest

def get? (r : Record) (key : String) : Option Value := valueIn? key r.properties

/-- Replaces the value of a key, or adds the key as the last one. -/
def setIn (key : String) (value : Value) : List (String × Value) → List (String × Value)
  | [] => [(key, value)]
  | (k, v) :: rest => if k = key then (k, value) :: rest else (k, v) :: setIn key value rest

def set (r : Record) (key : String) (value : Value) : Record := ⟨setIn key value r.properties⟩

theorem valueIn?_setIn (key : String) (value : Value) (ps : List (String × Value)) (k : String) :
    valueIn? k (setIn key value ps) = if key = k then some value else valueIn? k ps := by
  induction ps with
  | nil => rfl
  | cons p ps ih =>
    obtain ⟨k', v⟩ := p
    by_cases h : k' = key
    · subst h
      by_cases h' : k' = k <;> simp [setIn, valueIn?, h']
    · by_cases h' : k' = k
      · subst h'
        simp [setIn, valueIn?, h, Ne.symm h]
      · simp [setIn, valueIn?, h, h', ih]

/-- What is set is read back, and nothing else changes. -/
theorem get?_set (r : Record) (key : String) (value : Value) (k : String) :
    (r.set key value).get? k = if key = k then some value else r.get? k :=
  valueIn?_setIn key value r.properties k

end Record

namespace Value

def isCallable : Value → Bool
  | function _ | builtin _ => true
  | _ => false

def isTruthy : Value → Bool
  | undefined | null => false
  | bool b => b
  | number x => x != 0 && !x.isNaN
  | string s => !s.isEmpty
  | array _ | object _ | function _ | builtin _ | error _ => true

/-- What `typeof` gives. -/
def typeOf : Value → String
  | undefined => "undefined"
  | bool _ => "boolean"
  | number _ => "number"
  | string _ => "string"
  | function _ | builtin _ => "function"
  | null | array _ | object _ | error _ => "object"

/-- What `===` decides: references are equal if they lead to the same place. -/
def strictEq : Value → Value → Bool
  | undefined, undefined | null, null => true
  | bool a, bool b => a == b
  | number a, number b => a == b
  | string a, string b => a == b
  | array a, array b | object a, object b | function a, function b | builtin a, builtin b
  | error a, error b => a == b
  | _, _ => false

def ofLiteral : Literal → Value
  | .number x => number x
  | .string s => string s
  | .bool b => bool b
  | .null => null

end Value

end ScriptDebugger
