import ScriptDebugger.Machine.Interpreter
import ScriptDebugger.Proofs.Machine.CallStack
import ScriptDebugger.Proofs.Syntax.FunctionTree

/-!
# Programs that are one function

With room for one activation, a program that is nothing but a function expression evaluates to that
function, in two steps (`loneFunction_of_sole`).
-/

namespace ScriptDebugger

open Machine

/-- The store after a function expression has been evaluated in `outer`. With a name the function
is closed over a scope of its own. -/
def Store.withFunction (e : Setting) (s : Store) (outer : ScopeId) (id : NodeId)
    (params : List NodeId) (body : NodeId) : (shown : Option String) → Store
  | none => (s.newClosure (e.closure id none params body outer)).1
  | some own =>
    let inner := (s.newScope (some outer)).1
    (inner.newClosure (e.closure id (some own) params body s.scopes.size)).1.define
      s.scopes.size own (.function s.closures.size) false

lemma Store.closure_withFunction (e : Setting) (s : Store) (outer : ScopeId) (id : NodeId)
    (params : List NodeId) (body : NodeId) (shown : Option String) :
    ∃ scope, (s.withFunction e outer id params body shown).closure s.closures.size =
      e.closure id shown params body scope := by
  have last (cs : Array Closure) (c : Closure) : (cs.push c)[cs.size]?.getD default = c := by simp
  cases shown with
  | none => exact ⟨outer, last s.closures _⟩
  | some own => exact ⟨s.scopes.size, last s.closures _⟩

lemma Machine.functionValue_eq (e : Setting) (m : Machine) (id : NodeId) (name : Option NodeId)
    (params : List NodeId) (body : NodeId) :
    m.functionValue e id name params body =
      Machine.give { m with
        store := m.store.withFunction e m.scope id params body
          (name.bind fun n => (e.tree.kind n).name?) } (.function m.store.closures.size) := by
  rw [functionValue]
  cases name.bind fun n => (e.tree.kind n).name? <;> rfl

lemma Tree.SoleExpression.loneExpression {t : Tree} {id : NodeId} (h : t.SoleExpression id) :
    Interpreter.loneExpression? t = some id := by
  obtain ⟨s, program, statement⟩ := h.statement
  simp only [Interpreter.loneExpression?, Interpreter.programBody, h.root, Option.getD_some,
    program, statement]

namespace Interpreter

variable {id : NodeId} {name : Option NodeId} {params : List NodeId} {body : NodeId}

/-- The store after the function has been evaluated in a new scope for the program. -/
def functionStore (i : Interpreter) (id : NodeId) (name : Option NodeId) (params : List NodeId)
    (body : NodeId) : Store :=
  i.newProgramScope.1.store.withFunction (i.setting fun _ => false) i.store.scopes.size id params
    body (name.bind fun n => (i.tree.kind n).name?)

lemma loneFunction_of_sole (i : Interpreter) (sole : i.tree.SoleExpression id)
    (function : i.tree.kind id = .functionExpression name params body) (room : 0 < i.maxDepth)
    (fuel : Nat) :
    i.loneFunction (fuel + 2) = some (.ok ⟨{ i with store := i.functionStore id name params body },
      .function i.store.closures.size, ""⟩) := by
  let e := i.setting fun _ => false
  let scope := i.store.scopes.size
  obtain ⟨calls, hpush, hcalls, -⟩ := CallStack.push?_of_lt (c := .empty i.maxDepth)
    ⟨i.tree.root.getD 0, scope, none⟩ room
  have scope_eq (m : Machine) (h : m.calls = calls.setPc id) : m.scope = scope := by
    rw [Machine.scope, h, CallStack.top?_eq_head?, CallStack.setPc, CallStack.toList_modifyTop,
      hcalls]
    rfl
  -- the three states of the run: before the function, with its value, and behind the program
  have start : i.newProgramScope.1.idle.enter ⟨i.tree.root.getD 0, scope, none⟩
      (fun m => m.evalThen id .leave) =
        ⟨i.newProgramScope.1.store, calls, "", .eval id, [.leave]⟩ := by
    simp only [enter, idle, newProgramScope, Store.newScope, hpush]
    rfl
  have evaluated : Machine.step e
      ⟨i.newProgramScope.1.store, calls, "", .eval id, [.leave]⟩ =
        ⟨i.functionStore id name params body, calls.setPc id, "",
          .value (.function i.store.closures.size), [.leave]⟩ := by
    have kind : e.tree.kind id = .functionExpression name params body := function
    simp only [Machine.step, evalNode, kind, functionValue_eq, setPc]
    rw [scope_eq _ rfl]
    rfl
  have left : Machine.step e ⟨i.functionStore id name params body, calls.setPc id, "",
      .value (.function i.store.closures.size), [.leave]⟩ =
        ⟨i.functionStore id name params body, (calls.setPc id).pop, "",
          .value (.function i.store.closures.size), []⟩ := rfl
  have ran : Machine.run e (fuel + 2)
      ⟨i.newProgramScope.1.store, calls, "", .eval id, [.leave]⟩ =
        some ⟨i.functionStore id name params body, (calls.setPc id).pop, "",
          .value (.function i.store.closures.size), []⟩ := by
    simp only [Machine.run, isFinal, Bool.false_eq_true, if_false, evaluated, left]
    cases fuel <;> rfl
  rw [loneFunction, sole.loneExpression]
  simp only [newProgramScope, Store.newScope] at start ran ⊢
  rw [start]
  exact congrArg (Option.map _) ran

/-- A text that is nothing but a function can be called, with room for one activation. -/
lemma callableOfText_of_sole {t : Tree} {text : String} {maxDepth : Nat}
    (parsed : Tree.parse text = .ok t) (sole : t.SoleExpression id)
    (function : t.kind id = .functionExpression name params body) (room : 0 < maxDepth)
    (fuel : Nat) :
    ∃ c, callableOfText (fuel + 2) maxDepth text = some (.ok c) ∧
      ∃ scope, c.closure = Setting.closure ((ofTree t text true maxDepth).setting fun _ => false)
        id (name.bind fun n => (t.kind n).name?) params body scope := by
  rw [callableOfText, parsed]
  exact ⟨_, loneFunction_of_sole (ofTree t text true maxDepth) sole function room fuel,
    Store.closure_withFunction _ (ofTree t text true maxDepth).newProgramScope.1.store _ _ _ _ _⟩

end Interpreter

end ScriptDebugger
