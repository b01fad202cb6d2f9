import ScriptDebugger.Proofs.Machine.Jumps
import ScriptDebugger.Proofs.Machine.Rebinding

/-!
# Constants

A constant stays what it is until a declarator of its name is executed in the
scope that binds it; `let` and `const` then bind the name anew. An assignment
that reaches a constant, be it plain, compound or an update, throws instead, and
since nothing catches what is thrown, it ends the run.
-/

namespace ScriptDebugger

namespace Machine

variable {e : Setting} {m : Machine}

/-- Whether the next step executes a declarator of the name in the scope. -/
def Redeclares (e : Setting) (m : Machine) (scope : ScopeId) (name : String) : Prop :=
  ((m.step e).scope = scope ∧ ∃ b ∈ m.declared e, b.name = name) ∨
    m.scope = scope ∧ m.varDeclared? = some name

/-- The name that the next step assigns to. -/
def assigned? (e : Setting) (m : Machine) : Option String :=
  match m.control, m.pending with
  | .value _, .assignName _ name _ :: _ => some name
  | .eval id, _ =>
    match e.tree.kind id with
    | .updateExpression _ _ argument => (e.tree.kind argument).name?
    | _ => none
  | _, _ => none

/-- What a declarator binds is found under its name, unless the same step binds the name again. -/
lemma find?_declared (running : m.isFinal = false → m.calls.toList ≠ [])
    (inside : (m.step e).scope < (m.step e).store.scopes.size) {pre post : List Binding}
    {b : Binding} (declared : m.declared e = pre ++ b :: post)
    (last : ∀ c ∈ post, c.name ≠ b.name) :
    ((m.step e).store.scope (m.step e).scope).find? b.name = some b := by
  cases rebinds_step (e := e) running with
  | @lexical s var kept scope store =>
    rw [store, (Store.SameScopes.bindAll _ _ _).size] at inside
    rw [store, declared]
    exact Store.find?_bindAll_last inside last
  | assigned var lexical target store | defined var lexical target store =>
    rw [lexical] at declared
    simp at declared

/-- A constant stays as it is unless it is declared again. -/
lemma constant_step (running : m.isFinal = false → m.calls.toList ≠ []) {scope : ScopeId}
    {name : String} {b : Binding} (found : (m.store.scope scope).find? name = some b)
    (constant : b.isMutable = false) (kept : ¬ m.Redeclares e scope name) :
    ((m.step e).store.scope scope).find? name = some b := by
  have inside : scope < m.store.scopes.size := by
    by_contra outside
    rw [Store.scope_of_size_le (Nat.le_of_not_lt outside)] at found
    cases found
  cases rebinds_step (e := e) running with
  | lexical var keeps _ store =>
    rw [store, Store.find?_bindAll]
    · exact keeps.constants scope inside name b found constant
    · exact fun same c hc own => kept (.inl ⟨same, c, hc, own⟩)
  | assigned var lexical target store =>
    rw [store]
    exact (Store.Keeps.assign m.store target _).constants scope inside name b found constant
  | @defined name' v fault var lexical target store =>
    rw [store, Store.scope_define_eq]
    split
    case isTrue here =>
      rw [Scope.find?_define]
      split
      case isTrue own =>
        have own : name' = name := own
        exact absurd (.inr ⟨here.1, own ▸ var⟩) kept
      case isFalse => exact found
    case isFalse => exact found

lemma constant_steps
    (running : ∀ n, (m.steps e n).isFinal = false → (m.steps e n).calls.toList ≠ []) {n k : Nat}
    {scope : ScopeId} {name : String} {b : Binding}
    (found : ((m.steps e n).store.scope scope).find? name = some b)
    (constant : b.isMutable = false)
    (kept : ∀ j < k, ¬ (m.steps e (n + j)).Redeclares e scope name) :
    ((m.steps e (n + k)).store.scope scope).find? name = some b := by
  induction k with
  | zero => exact found
  | succ k ih =>
    have before := ih fun j hj => kept j (Nat.lt_succ_of_lt hj)
    rw [← Nat.add_assoc, steps_succ]
    exact constant_step (running (n + k)) before constant (kept k (Nat.lt_succ_self k))

/-- The error that an assignment to a constant throws. -/
def constantError : ErrorObject := ⟨"TypeError", "Assignment to constant variable."⟩

/-- The machine throws an error object with the bindings of `s`. -/
def Throws (s : Store) (error : ErrorObject) (m : Machine) : Prop :=
  ∃ ref frames, m.control = .abrupt (.thrown (.error ref) frames) ∧ m.store.error ref = error ∧
    s.SameBindings m.store

lemma throws_fault (m : Machine) (f : Fault) : (m.throwFault f).Throws m.store f.toError := by
  refine ⟨m.store.errors.size, m.calls.capture, rfl, ?_, .newError m.store f.toError⟩
  simp [throwFault, throwValue, goTo, Store.newError, Store.error]

lemma throws_writeName {name : String}
    (target : m.store.assignTarget m.scope name = .error .constant) (v result : Value) :
    (m.writeName name v result).Throws m.store constantError := by
  rw [writeName_eq, target]
  exact throws_fault m .assignmentToConstant

/-- The binding that a name leads to. -/
def LeadsTo (m : Machine) (name : String) (scope : ScopeId) (b : Binding) : Prop :=
  m.store.binder? m.scope name = some scope ∧ (m.store.scope scope).find? name = some b

/-- An assignment that reaches a constant throws, and no binding changes. -/
lemma throws_step {name : String} {scope : ScopeId} {b : Binding}
    (assigned : m.assigned? e = some name) (leads : m.LeadsTo name scope b)
    (constant : b.isMutable = false) : (m.step e).Throws m.store constantError := by
  obtain ⟨binder, found⟩ := leads
  have target : m.store.assignTarget m.scope name = .error .constant := by
    simp [Store.assignTarget, binder, found, constant]
  have known : m.store.lookup? m.scope name = some b.value := by
    simp [Store.lookup?, binder, found]
  obtain ⟨store, calls, output, control, pending⟩ := m
  let start (ps : List Pending) (id : NodeId) : Machine :=
    Machine.setPc ⟨store, calls, output, .done, ps⟩ id
  have moved (ps : List Pending) (id : NodeId) : (start ps id).scope =
      Machine.scope ⟨store, calls, output, control, pending⟩ := scope_setPc _ id
  cases control with
  | eval id =>
    simp only [assigned?] at assigned
    split at assigned
    case h_1 op before argument hk =>
      have identifier := Tree.kind_of_name? assigned
      have current :
          Machine.lookup? (Machine.setPc ⟨store, calls, output, .done, pending⟩ id) name =
            some b.value := by rwa [Machine.lookup?, moved pending id]
      show (Machine.evalNode e ⟨store, calls, output, .done, pending⟩ id).Throws store constantError
      simp only [evalNode, hk, Machine.update, identifier, readName, current]
      exact throws_writeName (m := start pending id) (by rwa [moved]) _ _
    case h_2 => cases assigned
  | value v =>
    cases pending with
    | nil => cases assigned
    | cons p ps =>
      cases p with
      | assignName node own half =>
        obtain rfl : own = name := Option.some.inj assigned
        exact throws_writeName (m := start ps node) (by rwa [moved]) _ _
      | _ => cases assigned
  | _ => cases assigned

end Machine

namespace Interpreter

open Machine

variable {i : Interpreter}

/-- In a run, a constant is found under its name from the step of its
declarator on. It stays what it is until a declarator of the name is executed in its scope, and an
assignment that reaches it ends the run with a `TypeError` and changes no binding. -/
theorem constants_kept {t : Tree} (holds : Holds 0 t i) {e : Setting} {m : Machine}
    (starts : i.Starts 0 e m) :
    (∀ n pre b post, (m.steps e n).declared e = pre ++ b :: post →
      (∀ c ∈ post, c.name ≠ b.name) →
      ((m.steps e (n + 1)).store.scope (m.steps e (n + 1)).scope).find? b.name = some b) ∧
    (∀ n k scope name b, ((m.steps e n).store.scope scope).find? name = some b →
      b.isMutable = false → (∀ j < k, ¬ (m.steps e (n + j)).Redeclares e scope name) →
      ((m.steps e (n + k)).store.scope scope).find? name = some b) ∧
    ∀ n scope name b, (m.steps e n).LeadsTo name scope b → b.isMutable = false →
      (m.steps e n).assigned? e = some name →
      ∀ k, n < k → (m.steps e k).Throws (m.steps e n).store constantError := by
  obtain ⟨tree, store⟩ := holds.scoped
  have ordered := starts.scoped_steps (store e (starts.tree_eq.trans tree))
  refine ⟨fun n pre b post declared last => ?_, fun n k scope name b found constant kept => ?_,
    fun n scope name b leads constant assigned k hk => ?_⟩
  · have inside := (ordered (n + 1)).scope_lt
    rw [steps_succ] at inside ⊢
    exact find?_declared (starts.running n) inside declared last
  · exact constant_steps starts.running found constant kept
  · obtain ⟨ref, frames, control, error, same⟩ := throws_step assigned leads constant
    obtain ⟨l, rfl⟩ := Nat.exists_eq_add_of_lt hk
    have uncaught := steps_of_uncaught (e := e) rfl control l
    rw [← steps_succ, ← steps_add] at uncaught
    rw [Nat.add_right_comm]
    refine ⟨ref, frames, uncaught.1, ?_, ?_⟩
    · rw [uncaught.2.2.1, steps_succ]
      exact error
    · rw [uncaught.2.2.1, steps_succ]
      exact same

/-- An assignment to a constant that has been declared two statements before. -/
theorem constants_kept_assigned :
    ∃ (t : Tree) (i : Interpreter) (m : Machine) (b : Binding),
      Tree.parse "const x = true; ; x = false;" = .ok t ∧ Holds 0 t i ∧
      i.Starts 0 (i.setting neverHalt) m ∧ b.name = "x" ∧ b.isMutable = false ∧
      (m.steps (i.setting neverHalt) 2).declared (i.setting neverHalt) = [] ++ b :: [] ∧
      ((m.steps (i.setting neverHalt) 3).store.scope 1).find? "x" = some b ∧
      ((m.steps (i.setting neverHalt) 9).store.scope 1).find? "x" = some b ∧
      (m.steps (i.setting neverHalt) 9).LeadsTo "x" 1 b ∧
      (m.steps (i.setting neverHalt) 9).assigned? (i.setting neverHalt) = some "x" ∧
      ∀ k, 9 < k → (m.steps (i.setting neverHalt) k).Throws
        (m.steps (i.setting neverHalt) 9).store constantError := by
  let text := "const x = true; ; x = false;"
  let t := (Tree.parse text).toOption.getD default
  let i := (ofTree t text false 10).newProgramScope
  let e := i.1.setting neverHalt
  let m := i.1.startProgram i.2 neverHalt
  have parsed : Tree.parse text = .ok t := Tree.parse_of_isSome (by decide +kernel)
  have holds : Holds 0 t i.1 := (Holds.built ..).scope
  have starts : i.1.Starts 0 e m :=
    .program (Nat.zero_le _) (ofTree t text false 10).newProgramScope_lt neverHalt
  obtain ⟨declares, keeps, throws⟩ := constants_kept holds starts
  have binds : ((m.steps e 2).declared e).map (fun b => (b.name, b.isMutable)) =
      [("x", false)] := by decide +kernel
  have alone : (List.range 6).all (fun j => ((m.steps e (3 + j)).declared e).isEmpty &&
      (m.steps e (3 + j)).varDeclared?.isNone) = true := by decide +kernel
  have scope : (m.steps e 3).scope = 1 := by decide +kernel
  have binder : (m.steps e 9).store.binder? (m.steps e 9).scope "x" = some 1 := by decide +kernel
  have assigned : (m.steps e 9).assigned? e = some "x" := by decide +kernel
  obtain ⟨b, declared, own⟩ := List.map_eq_singleton_iff.mp binds
  obtain ⟨name, constant⟩ := Prod.mk.inj own
  have found : ((m.steps e 3).store.scope 1).find? "x" = some b := by
    have found := declares 2 [] b [] declared (List.forall_mem_nil _)
    rwa [show (m.steps e (2 + 1)).scope = 1 from scope, name] at found
  have later : ((m.steps e 9).store.scope 1).find? "x" = some b := by
    refine keeps 3 6 1 "x" b found constant fun j hj redeclares => ?_
    have none : ((m.steps e (3 + j)).declared e).isEmpty = true ∧
        (m.steps e (3 + j)).varDeclared?.isNone = true := by
      simpa using List.all_eq_true.mp alone j (List.mem_range.mpr hj)
    rcases redeclares with ⟨-, c, hc, -⟩ | ⟨-, var⟩
    · rw [List.isEmpty_iff.mp none.1] at hc
      cases hc
    · rw [Option.isNone_iff_eq_none.mp none.2] at var
      cases var
  have leads : (m.steps e 9).LeadsTo "x" 1 b := ⟨binder, later⟩
  exact ⟨t, i.1, m, b, parsed, holds, starts, name, constant, declared, found, later, leads,
    assigned, throws 9 1 "x" b leads constant assigned⟩

/-- A constant may be declared again. Its declaration as a variable binds the name anew, and nothing
is thrown. -/
theorem constant_redeclared :
    ∃ (t : Tree) (i : Interpreter) (m : Machine) (b b' : Binding),
      Tree.parse "const x = true;\nlet x = false;" = .ok t ∧ Holds 0 t i ∧
      i.Starts 0 (i.setting neverHalt) m ∧
      ((m.steps (i.setting neverHalt) 3).store.scope 1).find? "x" = some b ∧
      b.isMutable = false ∧ b.value.isTruthy = true ∧
      (m.steps (i.setting neverHalt) 9).isFinal = true ∧
      (m.steps (i.setting neverHalt) 9).control.isRegular = true ∧
      ((m.steps (i.setting neverHalt) 9).store.scope 1).find? "x" = some b' ∧
      b'.isMutable = true ∧ b'.value.isTruthy = false := by
  let text := "const x = true;\nlet x = false;"
  let t := (Tree.parse text).toOption.getD default
  let i := (ofTree t text false 10).newProgramScope
  let e := i.1.setting neverHalt
  let m := i.1.startProgram i.2 neverHalt
  have parsed : Tree.parse text = .ok t := Tree.parse_of_isSome (by decide +kernel)
  have before : (((m.steps e 3).store.scope 1).find? "x").map
      (fun b => (b.isMutable, b.value.isTruthy)) = some (false, true) := by decide +kernel
  have after : (((m.steps e 9).store.scope 1).find? "x").map
      (fun b => (b.isMutable, b.value.isTruthy)) = some (true, false) := by decide +kernel
  have ended : (m.steps e 9).isFinal = true ∧ (m.steps e 9).control.isRegular = true := by
    decide +kernel
  obtain ⟨b, found, own⟩ := Option.map_eq_some_iff.mp before
  obtain ⟨b', found', own'⟩ := Option.map_eq_some_iff.mp after
  obtain ⟨constant, value⟩ := Prod.mk.inj own
  obtain ⟨variable_, value'⟩ := Prod.mk.inj own'
  exact ⟨t, i.1, m, b, b', parsed, (Holds.built ..).scope,
    .program (Nat.zero_le _) (ofTree t text false 10).newProgramScope_lt neverHalt, found, constant,
    value, ended.1, ended.2, found', variable_, value'⟩

end Interpreter

end ScriptDebugger
