import ScriptDebugger.Value.Basic

/-!
# The store

What references lead to, and the scopes. Places are given out in order and
never taken back. A scope binds names in the order in which they were first
defined and leads to its parent, which is older.
-/

namespace ScriptDebugger

structure Binding where
  name : String
  value : Value
  isMutable : Bool
  deriving Repr, Inhabited

/-- Bindings in the order in which their names were first defined. The index leads from each name
to the slot of its binding, and from no other text anywhere. -/
@[ext]
structure Scope where
  bindings : List Binding
  index : List (String × Nat)
  parent : Option ScopeId
  indexed : ∀ name slot, index.lookup name = some slot ↔
    bindings[slot]?.map (·.name) = some name
  deriving Repr

namespace Scope

/-- A scope without bindings. -/
def empty (parent : Option ScopeId) : Scope := ⟨[], [], parent, by simp⟩

instance : Inhabited Scope := ⟨empty none⟩

variable (s : Scope)

def slot? (name : String) : Option Nat := s.index.lookup name

def find? (name : String) : Option Binding := do
  let slot ← s.slot? name
  s.bindings[slot]?

def binds (name : String) : Bool := (s.slot? name).isSome

/-- A binding may take over the slot of its name. -/
theorem indexed_set {b : Binding} {slot : Nat} (found : s.slot? b.name = some slot) (name : String)
    (i : Nat) : s.index.lookup name = some i ↔
      (s.bindings.set slot b)[i]?.map (·.name) = some name := by
  rw [s.indexed, List.getElem?_set]
  split
  case isTrue here =>
    have own := (s.indexed b.name slot).mp found
    obtain ⟨old, at_, same⟩ := Option.map_eq_some_iff.mp own
    obtain ⟨inside, -⟩ := List.getElem?_eq_some_iff.mp at_
    rw [← here, if_pos inside, own]
    rfl
  case isFalse => rfl

/-- A binding of a new name may take the slot behind the others. -/
theorem indexed_append {b : Binding} (free : s.slot? b.name = none) (name : String) (i : Nat) :
    ((b.name, s.bindings.length) :: s.index).lookup name = some i ↔
      (s.bindings ++ [b])[i]?.map (·.name) = some name := by
  have other : s.bindings[i]?.map (·.name) ≠ some b.name := fun h => by
    rw [slot?, (s.indexed b.name i).mpr h] at free
    cases free
  by_cases own : name = b.name
  · subst own
    rw [List.lookup_cons_self, Option.some.injEq]
    rcases Nat.lt_trichotomy i s.bindings.length with before | rfl | behind
    · rw [List.getElem?_append_left before]
      exact ⟨fun h => absurd h.symm (Nat.ne_of_lt before), fun h => absurd h other⟩
    · simp
    · rw [List.getElem?_eq_none (by rw [List.length_append]; exact behind)]
      exact ⟨fun h => absurd h (Nat.ne_of_lt behind), fun h => by cases h⟩
  · have skip : ((b.name, s.bindings.length) :: s.index).lookup name = s.index.lookup name := by
      rw [List.lookup_cons, beq_false_of_ne own]
    rw [skip, s.indexed]
    rcases Nat.lt_trichotomy i s.bindings.length with before | rfl | behind
    · rw [List.getElem?_append_left before]
    · simp [Ne.symm own]
    · rw [List.getElem?_eq_none (Nat.le_of_lt behind),
        List.getElem?_eq_none (by rw [List.length_append]; exact behind)]

/-- Replaces the binding of the same name, or adds the binding as the last one. -/
def define (b : Binding) : Scope :=
  match found : s.slot? b.name with
  | some slot =>
    { s with bindings := s.bindings.set slot b, indexed := s.indexed_set found }
  | none =>
    { s with
      bindings := s.bindings ++ [b]
      index := (b.name, s.bindings.length) :: s.index
      indexed := s.indexed_append found }

@[simp] theorem parent_define (b : Binding) : (s.define b).parent = s.parent := by
  rw [define]
  split <;> rfl

end Scope

structure Store where
  arrays : Array (Array Value)
  records : Array Record
  closures : Array Closure
  builtins : Array BoundBuiltin
  errors : Array ErrorObject
  scopes : Array Scope
  deriving Repr, Inhabited

namespace Store

def empty : Store :=
  { arrays := #[], records := #[], closures := #[], builtins := #[], errors := #[], scopes := #[] }

def newArray (s : Store) (items : Array Value) : Store × Value :=
  let ref := s.arrays.size
  ({ s with arrays := s.arrays.push items }, .array ref)

def newRecord (s : Store) (r : Record) : Store × Value :=
  let ref := s.records.size
  ({ s with records := s.records.push r }, .object ref)

def newClosure (s : Store) (c : Closure) : Store × Value :=
  let ref := s.closures.size
  ({ s with closures := s.closures.push c }, .function ref)

def newBuiltin (s : Store) (builtin : Builtin) (receiver : Option Value) : Store × Value :=
  let ref := s.builtins.size
  ({ s with builtins := s.builtins.push ⟨builtin, receiver⟩ }, .builtin ref)

def newError (s : Store) (e : ErrorObject) : Store × Value :=
  let ref := s.errors.size
  ({ s with errors := s.errors.push e }, .error ref)

/-- A new scope without bindings. -/
def newScope (s : Store) (parent : Option ScopeId) : Store × ScopeId :=
  let id := s.scopes.size
  ({ s with scopes := s.scopes.push (.empty parent) }, id)

def array (s : Store) (ref : Ref) : Array Value := s.arrays[ref]?.getD #[]

def record (s : Store) (ref : Ref) : Record := s.records[ref]?.getD .empty

def closure (s : Store) (ref : Ref) : Closure := s.closures[ref]?.getD default

def builtin (s : Store) (ref : Ref) : BoundBuiltin := s.builtins[ref]?.getD default

def error (s : Store) (ref : Ref) : ErrorObject := s.errors[ref]?.getD default

def scope (s : Store) (id : ScopeId) : Scope := s.scopes[id]?.getD (.empty none)

def setArray (s : Store) (ref : Ref) (f : Array Value → Array Value) : Store :=
  { s with arrays := s.arrays.modify ref f }

def setRecord (s : Store) (ref : Ref) (f : Record → Record) : Store :=
  { s with records := s.records.modify ref f }

/-- A scope and those around it, innermost first. A parent is older than its child, so a chain
is no longer than the number of its first scope allows. -/
def chainFrom (s : Store) : (fuel : Nat) → ScopeId → List ScopeId
  | 0, _ => []
  | fuel + 1, id =>
    match (s.scope id).parent with
    | some parent => id :: s.chainFrom fuel parent
    | none => [id]

def chain (s : Store) (id : ScopeId) : List ScopeId := s.chainFrom (id + 1) id

/-- The nearest scope on the chain from `id` that binds `name`. -/
def binder? (s : Store) (id : ScopeId) (name : String) : Option ScopeId :=
  (s.chain id).find? fun i => (s.scope i).binds name

/-- The value of the nearest binding of `name`. -/
def lookup? (s : Store) (id : ScopeId) (name : String) : Option Value := do
  let owner ← s.binder? id name
  let binding ← (s.scope owner).find? name
  return binding.value

/-- Defines or redefines `name` in one scope; a redefinition keeps its position. -/
def define (s : Store) (id : ScopeId) (name : String) (value : Value) (isMutable : Bool) : Store :=
  { s with scopes := s.scopes.modify id fun scope => scope.define ⟨name, value, isMutable⟩ }

/-- Why an assignment changes nothing. -/
inductive AssignFault where
  /-- The nearest binding is constant. -/
  | constant
  /-- No scope on the chain binds the name. -/
  | unbound
  deriving DecidableEq, Repr, Inhabited

/-- The scope whose binding of `name` an assignment from `id` changes. -/
def assignTarget (s : Store) (id : ScopeId) (name : String) : Except AssignFault ScopeId :=
  match s.binder? id name with
  | none => .error .unbound
  | some owner =>
    if ((s.scope owner).find? name).any (·.isMutable) then .ok owner else .error .constant

/-- Assigns at the first of some scopes that binds `name`, unless that binding is constant. With the
store comes back why nothing is assigned. -/
def assignAlong (s : Store) (name : String) (value : Value) :
    List ScopeId → Store × Option AssignFault
  | [] => (s, some .unbound)
  | id :: outer =>
    match (s.scope id).find? name with
    | some b => if b.isMutable then (s.define id name value true, none) else (s, some .constant)
    | none => s.assignAlong name value outer

/-- Assigns to the nearest binding of `name`. -/
def assignNearest (s : Store) (id : ScopeId) (name : String) (value : Value) :
    Store × Option AssignFault :=
  s.assignAlong name value (s.chain id)

/-- The store after an assignment that is not refused. -/
def assign (s : Store) (id : ScopeId) (name : String) (value : Value) : Except AssignFault Store :=
  match s.assignNearest id name value with
  | (s, none) => .ok s
  | (_, some fault) => .error fault

end Store

end ScriptDebugger
