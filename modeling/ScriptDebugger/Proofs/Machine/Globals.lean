import ScriptDebugger.Proofs.Machine.Confined
import ScriptDebugger.Proofs.Machine.Runs

/-!
# Runs and the global scope

The store that an interpreter starts with is confined, and a program, the
evaluation of a function and the run of that function all start and stay within
the scopes of the script. So however often an interpreter has run its tree, the
global scope binds what it was given at first.
-/

namespace ScriptDebugger

namespace Store

lemma Made.defineGlobal {s : Store} (h : s.Made) (name : String) (v : Value) :
    (s.defineGlobal name v).Made := h.define globalScope name v false

lemma Made.defineBuiltin {s : Store} (h : s.Made) (b : Builtin) : (s.defineBuiltin b).Made := by
  have made : (s.newBuiltin b none).1.Made := h.elsewhere rfl
  exact made.defineGlobal _ _

lemma scopes_newBuiltins (members : List Builtin) (s : Store) (r : Record) :
    (members.foldl (fun (acc : Store × Record) b =>
      let (s, v) := acc.1.newBuiltin b none
      (s, acc.2.set b.name v)) (s, r)).1.scopes = s.scopes := by
  induction members generalizing s r with
  | nil => rfl
  | cons b rest ih => exact ih _ _

lemma Made.defineLibrary {s : Store} (h : s.Made) (name : String) (members : List Builtin) :
    (s.defineLibrary name members).Made := by
  have library := h.elsewhere (scopes_newBuiltins members s .empty)
  have made (r : Record) : (Store.newRecord _ r).1.Made := library.elsewhere rfl
  exact (made _).defineGlobal name _

lemma made_initial : initial.Made := by
  have first := ((Made.empty.newRoot.defineGlobal "undefined" .undefined).defineGlobal "NaN"
    (.number Binary64.nan)).defineGlobal "Infinity" (.number Binary64.infinity)
  have errors := ((((first.defineBuiltin (.construct .error)).defineBuiltin
    (.construct .typeError)).defineBuiltin (.construct .rangeError)).defineBuiltin
      (.construct .referenceError))
  exact (errors.defineLibrary "console" [.log]).defineLibrary "Math" [.floor, .max, .min, .abs]

lemma confined_initial (e : Setting) : initial.Confined e where
  toScoped := scoped_initial e
  made := made_initial
  globals := rfl
  declared := by
    intro id pos name hn
    have none : initial.scopes[id]? = none := Array.getElem?_eq_none pos
    rw [scope, none] at hn
    cases hn
  params := by
    intro c hc
    have none : initial.closures = #[] := rfl
    rw [none] at hc
    exact absurd hc (Array.not_mem_empty c)

lemma Confined.of_tree {e e' : Setting} {s : Store} (h : s.Confined e) (same : e.tree = e'.tree) :
    s.Confined e' where
  toScoped := h.toScoped.of_tree same
  made := h.made
  globals := h.globals
  declared := same ▸ h.declared
  params := same ▸ h.params

end Store

namespace Machine

variable {e : Setting} {m m' : Machine}

lemma Confined.steps (hw : e.tree.WellFormed) (h : Confined e m)
    (running : ∀ n, (m.steps e n).isFinal = false → (m.steps e n).calls.toList ≠ []) (n : Nat) :
    (m.steps e n).Confined e := by
  induction n with
  | zero => exact h
  | succ n ih =>
    rw [steps_succ]
    exact ih.step hw (running n)

lemma Confined.steps_of_balanced (hw : e.tree.WellFormed) (h : Confined e m) (hb : Balanced m)
    (n : Nat) : (m.steps e n).Confined e :=
  h.steps hw (fun k => (steps_preserve (fun _ hm => hm.step) hb k).running) n

lemma confined_of_nothing_left {s : Store} (h : s.Confined e) (maxDepth : Nat) (output : String) :
    Confined e ⟨s, .empty maxDepth, output, .done, []⟩ :=
  ⟨h, nofun, nofun, nofun, nofun⟩

/-- An activation in an inner scope is entered, unless there is no room for it. -/
lemma Confined.enter (h : Confined e m) {a : Activation} (inner : m.store.Inner a.scope)
    {next : Machine → Machine} (hnext : ∀ {m'}, Engaged e m' → m'.store = m.store →
      (next m').Confined e) : (m.enter a next).Confined e := by
  by_cases room : m.calls.depth < m.calls.maxDepth
  · obtain ⟨calls, hpush, hcalls, -⟩ := CallStack.push?_of_lt a room
    simp only [Machine.enter, hpush]
    refine hnext ⟨⟨h.store, fun b hb => ?_, h.restores, h.declares, h.frames⟩, ?_⟩ rfl
    · rw [hcalls] at hb
      rcases List.mem_cons.mp hb with rfl | hb
      · exact inner
      · exact h.activations b hb
    · rw [hcalls]
      exact List.cons_ne_nil _ _
  · simp only [Machine.enter, CallStack.push?_of_not_lt a room]
    have made := h.withStore (h.store.of_sameBindings (.newError _ Fault.stackExceeded.toError))
      (Nat.le_refl _)
    exact made.goTo fun _ hf => (Option.some.inj hf).symm

end Machine

namespace Interpreter

open Machine

variable {i : Interpreter}

section

variable (hw : i.tree.WellFormed) {e : Setting}
include hw

lemma confined_startProgram {halt : Node → Bool} (h : i.store.Confined (i.setting halt))
    {scope : ScopeId} (inner : i.store.Inner scope) :
    (i.startProgram scope halt).Confined (i.setting halt) := by
  have idle : Machine.Confined (i.setting halt) i.idle := confined_of_nothing_left h i.maxDepth ""
  unfold startProgram
  refine Confined.enter (a := ⟨i.root, scope, none⟩) idle inner
    fun {m} (h' : Engaged (i.setting halt) m) (same : m.store = i.store) => ?_
  rw [← same] at inner
  have hoisted := h'.store.hoist hw inner i.body
  have size := (h'.store.toScoped.hoist inner.lt_size i.body).2
  have entered := h'.withStore hoisted (Nat.le_of_eq size.symm)
  have pushed : Engaged (i.setting halt) (Machine.push _ .leave) :=
    ⟨entered.toConfined.push nofun nofun, entered.running⟩
  exact ((engaged_kept hw).runStatements pushed i.body).toConfined

omit hw in
lemma confined_startExpression (h : i.store.Confined e) {scope : ScopeId}
    (inner : i.store.Inner scope) (id : NodeId) : (i.startExpression scope id).Confined e := by
  have idle : Machine.Confined e i.idle := confined_of_nothing_left h i.maxDepth ""
  exact idle.enter (a := ⟨i.root, scope, none⟩) inner fun h' _ =>
    (h'.toConfined.push (p := .leave) nofun nofun).goTo_of_none rfl

lemma confined_startFunction (h : i.store.Confined (i.setting neverHalt)) (f : Value)
    (output : String) :
    (Callable.start ⟨i, f, output⟩).Confined (i.setting neverHalt) := by
  obtain ⟨ref, closure⟩ := exists_closure ⟨i, f, output⟩
  have idle : Machine.Confined (i.setting neverHalt) { i.idle with output } :=
    confined_of_nothing_left h i.maxDepth output
  rw [Callable.start, closure]
  exact idle.enterFunction hw ref [] (fun h' => ((engaged_kept hw).runBody h' _).toConfined)
    fun h' _ => h'

/-- What an interpreter with a confined store runs stays within the scopes of the script, if it does
not run its program in the global one. -/
lemma Starts.confined (h : i.store.Confined e) {m : Machine} (starts : i.Starts 1 e m) (n : Nat) :
    (m.steps e n).Confined e := by
  cases starts with
  | program above inside halt =>
    exact (confined_startProgram hw h ⟨above, inside⟩).steps_of_balanced hw
      (balanced_startProgram _ _ halt) n
  | expression above inside id =>
    exact (confined_startExpression h ⟨above, inside⟩ id).steps_of_balanced hw
      (balanced_startExpression _ id) n
  | function f output =>
    exact (confined_startFunction hw h f output).steps hw
      (Starts.function f output : i.Starts 1 _ _).running n

end

lemma Holds.confined {t : Tree} (hw : t.WellFormed) (holds : Holds 1 t i) :
    i.tree = t ∧ ∀ e : Setting, e.tree = t → i.store.Confined e := by
  induction holds with
  | built source suspends maxDepth => exact ⟨rfl, fun e _ => Store.confined_initial e⟩
  | scope _ ih =>
    obtain ⟨tree, store⟩ := ih
    exact ⟨tree, fun e same => (store e same).newScope (store e same).nonempty⟩
  | ran _ starts n ih =>
    obtain ⟨tree, store⟩ := ih
    have same := starts.tree_eq.trans tree
    have after := (starts.confined (tree ▸ hw) (store _ same) n).store
    exact ⟨tree, fun e' same' => after.of_tree (same.trans same'.symm)⟩

/-- Every state of every run of a tree stays within the scopes of the script. -/
theorem Holds.confined_steps {t : Tree} (hw : t.WellFormed) (holds : Holds 1 t i) {e : Setting}
    {m : Machine} (starts : i.Starts 1 e m) (n : Nat) :
    e.tree = t ∧ (m.steps e n).Confined e := by
  obtain ⟨tree, store⟩ := holds.confined hw
  have same := starts.tree_eq.trans tree
  exact ⟨same, starts.confined (tree ▸ hw) (store e same) n⟩

end Interpreter

end ScriptDebugger
