import Mathlib.Tactic.Lemma
import ScriptDebugger.Value.Store

/-!
# Chains of scopes

Where every parent is older than its child, the chain of a scope goes on with the
chain of its parent.
-/

namespace ScriptDebugger.Store

/-- Parents are older than their children. -/
def Older (s : Store) : Prop := ∀ id p : Nat, (s.scope id).parent = some p → p < id

variable {s : Store}

/-- Beyond the scopes that there are nothing is bound. -/
lemma scope_of_size_le {id : ScopeId} (outside : s.scopes.size ≤ id) :
    s.scope id = .empty none := by
  rw [scope, Array.getElem?_eq_none outside]
  rfl

lemma chainFrom_of_lt (h : s.Older) {fuel fuel' : Nat} {id : Nat} (hf : id < fuel)
    (hf' : id < fuel') : s.chainFrom fuel id = s.chainFrom fuel' id := by
  induction fuel generalizing fuel' id with
  | zero => omega
  | succ fuel ih =>
    cases fuel' with
    | zero => omega
    | succ fuel' =>
      simp only [chainFrom]
      cases hp : (s.scope id).parent with
      | none => rfl
      | some p =>
        have := h id p hp
        exact congrArg (id :: ·) (ih (by omega) (by omega))

lemma chain_of_some (h : s.Older) {id p : Nat} (hp : (s.scope id).parent = some p) :
    s.chain id = id :: s.chain p := by
  have := h id p hp
  have rest : s.chainFrom id p = s.chain p := chainFrom_of_lt h this (Nat.lt_succ_self p)
  rw [← rest, chain, chainFrom, hp]

lemma chain_of_none {id : Nat} (hp : (s.scope id).parent = none) : s.chain id = [id] := by
  simp only [chain, chainFrom, hp]

lemma Older.parent_zero (h : s.Older) : (s.scope 0).parent = none := by
  cases hp : (s.scope 0).parent with
  | none => rfl
  | some p => exact absurd (h 0 p hp) (Nat.not_lt_zero p)

lemma scope_define (s : Store) (id : ScopeId) (name : String) (v : Value) (isMutable : Bool)
    (i : ScopeId) :
    ((s.define id name v isMutable).scope i).parent = (s.scope i).parent := by
  simp only [scope, define, Array.getElem?_modify]
  split
  · cases s.scopes[i]? with
    | none => rfl
    | some scope => exact scope.parent_define _
  · rfl

lemma Older.define (h : s.Older) (id : ScopeId) (name : String) (v : Value) (isMutable : Bool) :
    (s.define id name v isMutable).Older := by
  intro i p hp
  rw [scope_define] at hp
  exact h i p hp

lemma Older.newScope (h : s.Older) {parent : Nat} (hp : parent < s.scopes.size) :
    (s.newScope (some parent)).1.Older := by
  intro i p hi
  simp only [Store.newScope, scope, Array.getElem?_push] at hi
  split at hi
  case isTrue last =>
    cases hi
    omega
  case isFalse => exact h i p hi

end ScriptDebugger.Store
