import ScriptDebugger.Proofs.Token.Moved
import ScriptDebugger.Proofs.Value.Bindings

/-!
# Stores with one function more around the script

A script that is run as the body of a function finds a store with a closure
before all others, the function, and with a scope between the global one and
that of the program, the scope of the function. `Store.nested` turns the store of
a script into that store; here is how the operations on stores go with it.
-/

namespace ScriptDebugger

/-- How a script stands inside a text: the function around it and the bytes before it. -/
structure Nesting where
  function : Closure
  offset : Nat

/-- The number of a scope when there is one more after the global scope. -/
def nestedScope : Nat → Nat
  | 0 => 0
  | id + 1 => id + 2

lemma nestedScope_ne_one (id : Nat) : nestedScope id ≠ 1 := by
  cases id <;> simp [nestedScope]

lemma nestedScope_eq_iff {id i : Nat} (h : i ≠ 1) : nestedScope id = i ↔ id = i - 1 := by
  cases id <;> simp only [nestedScope] <;> omega

lemma nestedScope_le (id : Nat) : nestedScope id ≤ id + 1 := by
  cases id <;> simp only [nestedScope] <;> omega

namespace Value

/-- The same value when there is one function more before all others. -/
def nested : Value → Value
  | function ref => function (ref + 1)
  | v => v

@[simp] lemma isTruthy_nested (v : Value) : v.nested.isTruthy = v.isTruthy := by
  cases v <;> rfl

@[simp] lemma typeOf_nested (v : Value) : v.nested.typeOf = v.typeOf := by
  cases v <;> rfl

@[simp] lemma strictEq_nested (a b : Value) : a.nested.strictEq b.nested = a.strictEq b := by
  cases a <;> cases b <;> simp [nested, strictEq]

@[simp] lemma nested_ofLiteral (l : Literal) : (ofLiteral l).nested = ofLiteral l := by
  cases l <;> rfl

end Value

namespace Record

def nested (r : Record) : Record := ⟨r.properties.map fun p => (p.1, p.2.nested)⟩

@[simp] lemma nested_empty : empty.nested = empty := rfl

@[simp] lemma get?_nested (r : Record) (key : String) :
    r.nested.get? key = (r.get? key).map Value.nested := by
  obtain ⟨ps⟩ := r
  simp only [nested, get?]
  induction ps with
  | nil => rfl
  | cons p ps ih =>
    simp only [List.map_cons, valueIn?]
    split
    · rfl
    · exact ih

lemma nested_set (r : Record) (key : String) (v : Value) :
    (r.set key v).nested = r.nested.set key v.nested := by
  obtain ⟨ps⟩ := r
  simp only [nested, set, mk.injEq]
  induction ps with
  | nil => rfl
  | cons p ps ih =>
    simp only [setIn, List.map_cons]
    split
    · rfl
    · rw [List.map_cons, ih]

end Record

def Closure.nested (n : Nesting) (c : Closure) : Closure :=
  { c with scope := nestedScope c.scope, span := c.span.move (n.offset + ·) }

def BoundBuiltin.nested (b : BoundBuiltin) : BoundBuiltin :=
  { b with receiver := b.receiver.map Value.nested }

def Binding.nested (b : Binding) : Binding := { b with value := b.value.nested }

namespace Scope

/-- The scope of the program, which is the first one after the global scope, leads to the new
scope in between. -/
def nestedAt (id : ScopeId) (s : Scope) : Scope :=
  { bindings := s.bindings.map Binding.nested
    index := s.index
    parent := s.parent.map (if id = 1 then Nat.succ else nestedScope)
    indexed := by
      intro name slot
      rw [s.indexed, List.getElem?_map, Option.map_map]
      rfl }

variable (id : ScopeId) (s : Scope)

lemma bindings_nestedAt : (s.nestedAt id).bindings = s.bindings.map Binding.nested := rfl

lemma index_nestedAt : (s.nestedAt id).index = s.index := rfl

lemma parent_nestedAt :
    (s.nestedAt id).parent = s.parent.map (if id = 1 then Nat.succ else nestedScope) := rfl

@[simp] lemma find?_nestedAt (name : String) :
    (s.nestedAt id).find? name = (s.find? name).map Binding.nested := by
  have slot : (s.nestedAt id).slot? name = s.slot? name := rfl
  rw [find?, find?, slot]
  cases s.slot? name with
  | none => rfl
  | some slot => exact List.getElem?_map

@[simp] lemma binds_nestedAt (name : String) : (s.nestedAt id).binds name = s.binds name := rfl

lemma nestedAt_define (b : Binding) :
    (s.define b).nestedAt id = (s.nestedAt id).define b.nested := by
  have parent : ((s.define b).nestedAt id).parent = ((s.nestedAt id).define b.nested).parent := by
    rw [parent_define, parent_nestedAt, parent_nestedAt, parent_define]
  cases found : s.slot? b.name with
  | none =>
    have free : (s.nestedAt id).slot? b.nested.name = none := found
    refine Scope.ext ?_ ?_ parent
    · rw [(define_of_free free).1, bindings_nestedAt, bindings_nestedAt, (define_of_free found).1,
        List.map_append, List.map_singleton]
    · rw [(define_of_free free).2, index_nestedAt, index_nestedAt, (define_of_free found).2,
        bindings_nestedAt, List.length_map]
      rfl
  | some slot =>
    have own : (s.nestedAt id).slot? b.nested.name = some slot := found
    refine Scope.ext ?_ ?_ parent
    · rw [(define_of_slot own).1, bindings_nestedAt, bindings_nestedAt, (define_of_slot found).1,
        List.map_set]
    · rw [(define_of_slot own).2, index_nestedAt, index_nestedAt, (define_of_slot found).2]

end Scope

namespace Store

/-- The store of a script that is the body of a function. -/
def nested (n : Nesting) (s : Store) : Store :=
  { arrays := s.arrays.map (·.map Value.nested)
    records := s.records.map Record.nested
    closures := #[n.function] ++ s.closures.map (Closure.nested n)
    builtins := s.builtins.map BoundBuiltin.nested
    errors := s.errors
    scopes := (s.scopes.mapIdx Scope.nestedAt).insertIdxIfInBounds 1 (.empty (some 0)) }

variable (n : Nesting) (s : Store)

@[simp] lemma array_nested (ref : Ref) :
    (s.nested n).array ref = (s.array ref).map Value.nested := by
  simp only [array, nested, Array.getElem?_map]
  cases s.arrays[ref]? <;> simp

@[simp] lemma size_arrays_nested : (s.nested n).arrays.size = s.arrays.size := by
  simp [nested]

@[simp] lemma record_nested (ref : Ref) : (s.nested n).record ref = (s.record ref).nested := by
  simp only [record, nested, Array.getElem?_map]
  cases s.records[ref]? <;> rfl

@[simp] lemma builtin_nested (ref : Ref) : (s.nested n).builtin ref = (s.builtin ref).nested := by
  simp only [builtin, nested, Array.getElem?_map]
  cases s.builtins[ref]? <;> rfl

@[simp] lemma error_nested (ref : Ref) : (s.nested n).error ref = s.error ref := rfl

/-- A function that there is not has no place in the text. -/
lemma closure_nested (ref : Ref) :
    ∃ span, (s.nested n).closure (ref + 1) =
      { s.closure ref with scope := nestedScope (s.closure ref).scope, span } := by
  simp only [closure, nested, Array.getElem?_append, Array.size_singleton]
  simp
  cases s.closures[ref]? with
  | none => exact ⟨_, rfl⟩
  | some c => exact ⟨_, rfl⟩

@[simp] lemma newArray_nested (items : Array Value) :
    (s.nested n).newArray (items.map Value.nested) =
      ((s.newArray items).1.nested n, (s.newArray items).2.nested) := by
  simp [newArray, nested, Value.nested]

@[simp] lemma newRecord_nested (r : Record) :
    (s.nested n).newRecord r.nested =
      ((s.newRecord r).1.nested n, (s.newRecord r).2.nested) := by
  simp [newRecord, nested, Value.nested]

@[simp] lemma newClosure_nested (c : Closure) :
    (s.nested n).newClosure (c.nested n) =
      ((s.newClosure c).1.nested n, (s.newClosure c).2.nested) := by
  have size : (#[n.function] ++ s.closures.map (Closure.nested n)).size = s.closures.size + 1 := by
    simp [Nat.add_comm]
  simp only [newClosure, nested, Array.map_push, Array.append_push, size, Value.nested]

@[simp] lemma newBuiltin_nested (b : Builtin) (receiver : Option Value) :
    (s.nested n).newBuiltin b (receiver.map Value.nested) =
      ((s.newBuiltin b receiver).1.nested n, (s.newBuiltin b receiver).2.nested) := by
  simp [newBuiltin, nested, Value.nested, BoundBuiltin.nested]

@[simp] lemma newError_nested (e : ErrorObject) :
    (s.nested n).newError e = ((s.newError e).1.nested n, (s.newError e).2.nested) := rfl

omit n s in
lemma map_modify {α β : Type} (g : α → β) (f : α → α) (f' : β → β)
    (hf : ∀ a, g (f a) = f' (g a)) (xs : Array α) (i : Nat) :
    (xs.modify i f).map g = (xs.map g).modify i f' := by
  refine Array.ext_getElem? fun k => ?_
  rw [Array.getElem?_map, Array.getElem?_modify, Array.getElem?_modify, Array.getElem?_map]
  split <;> cases xs[k]? <;> simp [hf]

lemma nested_setArray (ref : Ref) (f f' : Array Value → Array Value)
    (hf : ∀ items, (f items).map Value.nested = f' (items.map Value.nested)) :
    (s.setArray ref f).nested n = (s.nested n).setArray ref f' := by
  simp only [setArray, nested, map_modify _ f f' hf]

lemma nested_setRecord (ref : Ref) (f f' : Record → Record)
    (hf : ∀ r, (f r).nested = f' r.nested) :
    (s.setRecord ref f).nested n = (s.nested n).setRecord ref f' := by
  simp only [setRecord, nested, map_modify _ f f' hf]

section Scopes

variable {s : Store} (h : 1 ≤ s.scopes.size)
include h

lemma getElem?_scopes_nested (i : Nat) :
    (s.nested n).scopes[i]? =
      if i = 1 then some (.empty (some 0)) else s.scopes[i - 1]?.map (Scope.nestedAt (i - 1)) := by
  have h' : 1 ≤ (s.scopes.mapIdx Scope.nestedAt).size := by simpa using h
  rw [nested, Array.insertIdxIfInBounds, dif_pos h', Array.getElem?_insertIdx h']
  rcases i with _ | _ | i
  · simp
  · simp only [Nat.lt_irrefl, if_false, if_true, if_pos h', Nat.zero_add]
  · simp

lemma getElem?_scopes_nestedScope (id : ScopeId) :
    (s.nested n).scopes[nestedScope id]? = s.scopes[id]?.map (Scope.nestedAt id) := by
  rw [getElem?_scopes_nested n h, if_neg (nestedScope_ne_one id)]
  cases id <;> rfl

lemma size_scopes_nested : (s.nested n).scopes.size = nestedScope s.scopes.size := by
  have h' : 1 ≤ (s.scopes.mapIdx Scope.nestedAt).size := by simpa using h
  rw [nested, Array.insertIdxIfInBounds, dif_pos h', Array.size_insertIdx, Array.size_mapIdx]
  cases hs : s.scopes.size with
  | zero => omega
  | succ k => rfl

lemma scope_nested (id : ScopeId) :
    (s.nested n).scope (nestedScope id) = (s.scope id).nestedAt id := by
  rw [scope, getElem?_scopes_nestedScope n h, scope]
  cases s.scopes[id]? <;> rfl

/-- Nothing is bound in the scope of the function around the script. -/
lemma scope_nested_one : (s.nested n).scope 1 = .empty (some 0) := by
  rw [scope, getElem?_scopes_nested n h, if_pos rfl]
  rfl

lemma nested_define (id : ScopeId) (name : String) (v : Value) (isMutable : Bool) :
    (s.define id name v isMutable).nested n =
      (s.nested n).define (nestedScope id) name v.nested isMutable := by
  have h' : 1 ≤ (s.define id name v isMutable).scopes.size := by simpa [define] using h
  have scopes : ((s.define id name v isMutable).nested n).scopes =
      ((s.nested n).define (nestedScope id) name v.nested isMutable).scopes := by
    refine Array.ext_getElem? fun i => ?_
    rw [getElem?_scopes_nested n h', define, define, Array.getElem?_modify, Array.getElem?_modify,
      getElem?_scopes_nested n h]
    by_cases hi : i = 1
    · simp [hi, nestedScope_ne_one]
    · simp only [hi, if_false, nestedScope_eq_iff hi]
      split
      · simp only [Option.map_map, Function.comp_def, Scope.nestedAt_define]
        rfl
      · rfl
  rw [nested, mk.injEq]
  exact ⟨rfl, rfl, rfl, rfl, rfl, scopes⟩

end Scopes

/-- A scope that is made after that of the program. -/
lemma newScope_nested {s : Store} (h : 2 ≤ s.scopes.size) (parent : ScopeId) :
    (s.nested n).newScope (some (nestedScope parent)) =
      ((s.newScope (some parent)).1.nested n, nestedScope (s.newScope (some parent)).2) := by
  have h' : 1 ≤ (s.newScope (some parent)).1.scopes.size := by simp [newScope]
  have scopes : (s.nested n).scopes.push (.empty (some (nestedScope parent))) =
      ((s.newScope (some parent)).1.nested n).scopes := by
    refine Array.ext_getElem? fun i => ?_
    rw [getElem?_scopes_nested n h', Array.getElem?_push, getElem?_scopes_nested n (by omega),
      size_scopes_nested n (by omega), newScope, Array.getElem?_push]
    by_cases hi : i = 1
    · have first : 1 ≠ nestedScope s.scopes.size := (nestedScope_ne_one _).symm
      rw [hi, if_neg first, if_pos rfl]
      rfl
    · have same : i = nestedScope s.scopes.size ↔ i - 1 = s.scopes.size := by
        rw [eq_comm, nestedScope_eq_iff hi, eq_comm]
      simp only [hi, if_false, same]
      split
      case isTrue last =>
        have later : i - 1 ≠ 1 := by omega
        simp [Scope.nestedAt, Scope.empty, later]
      case isFalse => rfl
  rw [newScope, size_scopes_nested n (by omega)]
  exact Prod.ext (by rw [scopes]; rfl) rfl

section Chains

variable {s : Store} (h : 1 ≤ s.scopes.size) (older : s.Older)
include h older

lemma older_nested : (s.nested n).Older := by
  intro i p hp
  by_cases hi : i = 1
  · subst hi
    rw [scope_nested_one n h] at hp
    cases hp
    exact Nat.zero_lt_one
  · have at_ : nestedScope (i - 1) = i := (nestedScope_eq_iff hi).mpr rfl
    rw [← at_, scope_nested n h, Scope.nestedAt, Option.map_eq_some_iff] at hp
    obtain ⟨q, hq, rfl⟩ := hp
    have lt : q + 1 < i := Nat.add_lt_of_lt_sub (older _ _ hq)
    split
    · exact lt
    · exact Nat.lt_of_le_of_lt (nestedScope_le q) lt

/-- The chain of the program's scope leads through the scope of the function around it. -/
lemma chain_nested (id : Nat) :
    ∃ link, (link = [] ∨ link = [1]) ∧ (s.nested n).chain (nestedScope id) =
      nestedScope id :: link ++ ((s.scope id).parent.map fun p =>
        (s.nested n).chain (nestedScope p)).getD [] := by
  have older' := older_nested n h older
  have scope := scope_nested n h id
  cases hp : (s.scope id).parent with
  | none =>
    refine ⟨[], .inl rfl, ?_⟩
    rw [chain_of_none (by rw [scope, Scope.nestedAt, hp]; rfl)]
    rfl
  | some p =>
    have lt := older id p hp
    by_cases hid : id = 1
    · subst hid
      obtain rfl : p = 0 := Nat.lt_one_iff.mp lt
      refine ⟨[1], .inr rfl, ?_⟩
      rw [chain_of_some older' (p := 1) (by rw [scope, Scope.nestedAt, hp]; rfl),
        chain_of_some older' (p := 0) (by rw [scope_nested_one n h]; rfl)]
      rfl
    · refine ⟨[], .inl rfl, ?_⟩
      rw [chain_of_some older' (p := nestedScope p)
        (by rw [scope, Scope.nestedAt, hp, if_neg hid]; rfl)]
      rfl

/-- What does not look at the new scope finds the same scope along a chain. -/
lemma find?_chain_nested (q : ScopeId → Bool) (skips : q 1 = false) (id : Nat) :
    ((s.nested n).chain (nestedScope id)).find? q =
      ((s.chain id).find? (q ∘ nestedScope)).map nestedScope := by
  induction id using Nat.strong_induction_on with
  | h id ih =>
    obtain ⟨link, hlink, chain⟩ := chain_nested n h older id
    have passes : link.find? q = none := by
      rcases hlink with rfl | rfl <;> simp [skips]
    rw [chain, List.find?_append, List.find?_cons, passes]
    cases hp : (s.scope id).parent with
    | none =>
      rw [chain_of_none hp]
      cases hq : q (nestedScope id) <;> simp [hq]
    | some p =>
      rw [chain_of_some older hp, List.find?_cons]
      cases hq : q (nestedScope id) <;> simp [hq, ih p (older id p hp)]

/-- What the new scope does not change is computed alike along a chain. -/
lemma foldl_chain_nested {α : Type} (f : α → ScopeId → α) (skips : ∀ a, f a 1 = a) (id : Nat)
    (a : α) :
    (((s.nested n).chain (nestedScope id)).takeWhile (· ≠ 0)).foldl f a =
      ((s.chain id).takeWhile (· ≠ 0)).foldl (fun a i => f a (nestedScope i)) a := by
  induction id using Nat.strong_induction_on generalizing a with
  | h id ih =>
    obtain ⟨link, hlink, chain⟩ := chain_nested n h older id
    cases id with
    | zero =>
      have root := older.parent_zero
      rw [chain, chain_of_none root]
      rcases hlink with rfl | rfl <;> simp [nestedScope, root]
    | succ id =>
      have inner : nestedScope (id + 1) ≠ 0 := Nat.succ_ne_zero _
      have passes (b : α) (rest : List Nat) : ((link ++ rest).takeWhile (· ≠ 0)).foldl f b =
          (rest.takeWhile (· ≠ 0)).foldl f b := by
        rcases hlink with rfl | rfl <;> simp [skips]
      cases hp : (s.scope (id + 1)).parent with
      | none =>
        rw [chain, chain_of_none hp, hp]
        simpa [inner] using passes (f a (nestedScope (id + 1))) []
      | some p =>
        rw [chain, chain_of_some older hp, hp]
        have passes := passes (f a (nestedScope (id + 1))) ((s.nested n).chain (nestedScope p))
        rw [ih p (older _ p hp)] at passes
        simpa [inner] using passes

lemma binder?_nested (id : ScopeId) (name : String) :
    (s.nested n).binder? (nestedScope id) name = (s.binder? id name).map nestedScope := by
  rw [binder?, find?_chain_nested n h older _ (by rw [scope_nested_one n h]; rfl) id, binder?]
  simp only [Function.comp_def, scope_nested n h, Scope.binds_nestedAt]

lemma lookup?_nested (id : ScopeId) (name : String) :
    (s.nested n).lookup? (nestedScope id) name = (s.lookup? id name).map Value.nested := by
  simp only [lookup?, binder?_nested n h older]
  cases s.binder? id name with
  | none => rfl
  | some owner =>
    simp only [Option.map_some, Option.bind_eq_bind, Option.bind_some, scope_nested n h,
      Scope.find?_nestedAt]
    cases (s.scope owner).find? name <;> rfl

lemma assignTarget_nested (id : ScopeId) (name : String) :
    (s.nested n).assignTarget (nestedScope id) name =
      (s.assignTarget id name).map nestedScope := by
  simp only [assignTarget, binder?_nested n h older]
  cases s.binder? id name with
  | none => rfl
  | some owner =>
    simp only [Option.map_some, scope_nested n h, Scope.find?_nestedAt, Option.any_map,
      Binding.nested]
    split <;> rfl

end Chains

end Store

end ScriptDebugger
