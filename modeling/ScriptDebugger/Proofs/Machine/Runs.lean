import ScriptDebugger.Proofs.Machine.Halting
import ScriptDebugger.Proofs.Machine.Restored

/-!
# Runs of a tree

An interpreter can run its program, an expression of it and a function that it has
evaluated, each of them again and again and with the store that the last run left
(`Starts`, `Holds`). A program may be run in the global scope as well as in one of
its own; `low` is the least scope that is allowed, so it is 1 where the global one is
left to itself. In every state the store is scoped, and there is an activation
until the run has ended.
-/

namespace ScriptDebugger

/-- Only the tree counts for which bodies there are, and so for whether a store is scoped. -/
lemma Store.Scoped.of_tree {e e' : Setting} {s : Store} (h : s.Scoped e) (same : e.tree = e'.tree) :
    s.Scoped e' where
  nonempty := h.nonempty
  root := h.root
  inner := h.inner
  closures := by
    intro c hc
    obtain ⟨hs, hb⟩ := h.closures c hc
    rw [Setting.IsBody, same] at hb
    exact ⟨hs, hb⟩

lemma Machine.Balanced.running {m : Machine} (h : m.Balanced) (hf : m.isFinal = false) :
    m.calls.toList ≠ [] := by
  obtain ⟨a, as, hc⟩ := h.exists_top hf
  rw [hc]
  exact List.cons_ne_nil a as

namespace Interpreter

open Machine

/-- A machine about to evaluate an expression of the program in `scope`. -/
def startExpression (i : Interpreter) (scope : ScopeId) (expression : NodeId) : Machine :=
  i.idle.enter ⟨i.root, scope, none⟩ fun m => m.evalThen expression .leave

/-- What an interpreter can run in its scopes from `low` on: its program, an expression of it, and a
function that it has evaluated. -/
inductive Starts (low : ScopeId) (i : Interpreter) : Setting → Machine → Prop
  | program {scope : ScopeId} (above : low ≤ scope) (inside : scope < i.store.scopes.size)
    (halt : Node → Bool) : Starts low i (i.setting halt) (i.startProgram scope halt)
  | expression {scope : ScopeId} (above : low ≤ scope) (inside : scope < i.store.scopes.size)
    (id : NodeId) : Starts low i (i.setting neverHalt) (i.startExpression scope id)
  | function (f : Value) (output : String) :
    Starts low i (i.setting neverHalt) (Callable.start ⟨i, f, output⟩)

/-- Interpreters that hold a tree: just built, with a new scope, or with the store of a run. -/
inductive Holds (low : ScopeId) (t : Tree) : Interpreter → Prop
  | built (source : String) (suspends : Bool) (maxDepth : Nat) :
    Holds low t (.ofTree t source suspends maxDepth)
  | scope {i : Interpreter} (h : Holds low t i) : Holds low t i.newProgramScope.1
  | ran {i : Interpreter} (h : Holds low t i) {e : Setting} {m : Machine}
    (starts : i.Starts low e m) (n : Nat) : Holds low t { i with store := (m.steps e n).store }

variable {i : Interpreter} {low : ScopeId} {t : Tree} {e : Setting} {m : Machine}

lemma newProgramScope_lt (i : Interpreter) :
    i.newProgramScope.2 < i.newProgramScope.1.store.scopes.size := by
  simp [newProgramScope, Store.newScope]

/-- A value that is no function stands for one that there is not. -/
lemma exists_closure (c : Callable) : ∃ ref, c.closure = c.interpreter.store.closure ref := by
  rw [Callable.closure]
  split
  case h_1 ref _ => exact ⟨ref, rfl⟩
  case h_2 => exact ⟨c.interpreter.store.closures.size, by simp [Store.closure]⟩

lemma balanced_startExpression (scope : ScopeId) (id : NodeId) :
    Balanced (i.startExpression scope id) := by
  by_cases room : 0 < i.maxDepth
  · obtain ⟨calls, hpush, hcalls, -⟩ := CallStack.push?_of_lt (c := i.idle.calls)
      ⟨i.root, scope, none⟩ room
    simp only [startExpression, Machine.enter, hpush]
    refine ⟨?_, .inr ⟨[], rfl⟩⟩
    rw [← CallStack.length_toList]
    exact congrArg List.length hcalls
  · have hpush := CallStack.push?_of_not_lt (c := i.idle.calls) ⟨i.root, scope, none⟩ room
    simp only [startExpression, Machine.enter, hpush]
    exact ⟨rfl, .inl rfl⟩

section

variable (starts : i.Starts low e m)
include starts

lemma Starts.tree_eq : e.tree = i.tree := by cases starts <;> rfl

lemma Starts.source_eq : e.source = i.source := by cases starts <;> rfl

lemma Starts.scoped (h : i.store.Scoped e) : m.Scoped e := by
  cases starts with
  | program above inside halt => exact i.scoped_startProgram halt h inside
  | expression above inside id =>
    have idle := scoped_of_nothing_left h i.maxDepth ""
    exact idle.enter (a := ⟨i.root, _, none⟩) inside fun h' _ =>
      (h'.push (p := .leave) nofun).goTo _
  | function f output =>
    obtain ⟨ref, closure⟩ := exists_closure ⟨i, f, output⟩
    have idle := scoped_of_nothing_left h i.maxDepth output
    rw [Callable.start, closure]
    exact idle.enterFunction (h.closure ref).1 []
      (fun h' => ((SameScope.refl _).runBody _).wellScoped h') fun h' => h'

lemma Starts.scoped_steps (h : i.store.Scoped e) (n : Nat) : (m.steps e n).Scoped e :=
  steps_preserve (fun _ hm => hm.step) (starts.scoped h) n

/-- Until a run has ended, there is an activation. -/
lemma Starts.running (n : Nat) (hf : (m.steps e n).isFinal = false) :
    (m.steps e n).calls.toList ≠ [] := by
  cases starts with
  | program above inside halt =>
    exact (steps_preserve (fun _ h => h.step) (balanced_startProgram i _ halt) n).running hf
  | expression above inside id =>
    exact (steps_preserve (fun _ h => h.step) (balanced_startExpression _ id) n).running hf
  | function f output =>
    obtain ⟨as, ⟨-, nonempty⟩, unwinds⟩ := Callable.unwinds_start ⟨i, f, output⟩
    refine (unwinds.steps n).running (nonempty (Bool.eq_false_iff.mpr fun final => ?_))
    rw [steps_of_isFinal final, final] at hf
    cases hf

end

lemma Holds.scoped (holds : Holds low t i) :
    i.tree = t ∧ ∀ e : Setting, e.tree = t → i.store.Scoped e := by
  induction holds with
  | built source suspends maxDepth => exact ⟨rfl, fun e _ => Store.scoped_initial e⟩
  | scope _ ih =>
    obtain ⟨tree, store⟩ := ih
    exact ⟨tree, fun e same => (store e same).newScope (store e same).nonempty⟩
  | ran _ starts n ih =>
    obtain ⟨tree, store⟩ := ih
    have same := starts.tree_eq.trans tree
    have after := (starts.scoped_steps (store _ same) n).store
    exact ⟨tree, fun e' same' => after.of_tree (same.trans same'.symm)⟩

section NewScope

variable (holds : Holds 1 t i)
include holds

/-- A new scope is not the global one. -/
lemma Holds.one_le : 1 ≤ i.newProgramScope.2 := by
  obtain ⟨tree, store⟩ := holds.scoped
  exact (store (i.setting neverHalt) tree).nonempty

lemma Holds.program (halt : Node → Bool) : i.newProgramScope.1.Starts 1 (i.setting halt)
    (i.newProgramScope.1.startProgram i.newProgramScope.2 halt) :=
  .program holds.one_le i.newProgramScope_lt halt

lemma Holds.runProgram {fuel : Nat} {halt : Node → Bool} {r : Run}
    (hr : i.newProgramScope.1.runProgram fuel i.newProgramScope.2 halt = some r) :
    Holds 1 t r.interpreter := by
  obtain ⟨m, hrun, rfl⟩ := runProgram_eq_some _ |>.mp hr
  obtain ⟨-, n, -, rfl⟩ := run_eq_some_iff.mp hrun
  exact holds.scope.ran (holds.program halt) n

lemma Holds.loneFunction {fuel : Nat} {c : Callable}
    (hc : i.loneFunction fuel = some (.ok c)) : Holds 1 t c.interpreter := by
  simp only [Interpreter.loneFunction] at hc
  split at hc
  case h_1 => cases hc
  case h_2 expression _ =>
    obtain ⟨m, hrun, hm⟩ := Option.map_eq_some_iff.mp hc
    obtain ⟨-, n, -, rfl⟩ := run_eq_some_iff.mp hrun
    split at hm
    · cases hm
      exact holds.scope.ran (.expression holds.one_le i.newProgramScope_lt expression) n
    · cases hm

end NewScope

lemma Holds.exists_of_callableOfText {fuel maxDepth : Nat} {text : String} {c : Callable}
    (hc : callableOfText fuel maxDepth text = some (.ok c)) :
    ∃ t, Tree.parse text = .ok t ∧ Holds 1 t c.interpreter := by
  rw [callableOfText] at hc
  cases parsed : Tree.parse text with
  | error e => simp [parsed] at hc
  | ok t =>
    rw [parsed] at hc
    exact ⟨t, rfl, (Holds.built text true maxDepth).loneFunction hc⟩

lemma Holds.run {c : Callable} (holds : Holds low t c.interpreter) {fuel : Nat} {r : ReifiedRun}
    (hr : c.run fuel = some r) : Holds low t r.interpreter := by
  obtain ⟨⟨m, frames⟩, hcall, rfl⟩ := Option.map_eq_some_iff.mp hr
  obtain ⟨last, hrun, hlast⟩ := Option.map_eq_some_iff.mp hcall
  obtain ⟨-, n, -, rfl⟩ := run_eq_some_iff.mp hrun
  rw [← (Prod.mk.inj hlast).1]
  exact holds.ran (.function c.function c.output) n

end Interpreter

end ScriptDebugger
