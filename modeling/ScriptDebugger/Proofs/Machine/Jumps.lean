import ScriptDebugger.Proofs.Machine.Globals
import ScriptDebugger.Proofs.Machine.Orderly

/-!
# Runs and jumps

Whatever an interpreter runs of a text that parses starts orderly, and the
functions that it calls are those of its tree, so every state is orderly. No
`break` or `continue` reaches the end of an activation, and no `return` the end
of a program.
-/

namespace ScriptDebugger

open Grammar (Context Legal)

namespace Abrupt

/-- An error that nothing handles, or a halt. -/
def endsProgram : Abrupt → Bool
  | thrown .. | halted .. => true
  | _ => false

/-- A function may return as well. -/
def endsFunction : Abrupt → Bool
  | returned _ => true
  | a => a.endsProgram

end Abrupt

lemma Grammar.Context.endsProgram_of_lets {a : Abrupt}
    (h : (⟨false, false⟩ : Context).lets a = true) : a.endsProgram = true := by
  cases a <;> first | rfl | cases h

lemma Grammar.Context.endsFunction_of_lets {ctx : Context} {a : Abrupt} (h : ctx.lets a = true)
    (noLoop : ctx.inLoop = false) : a.endsFunction = true := by
  cases a with
  | broken | continued => cases noLoop.symm.trans h
  | _ => rfl

namespace Machine

/-- An abrupt end is at hand, and `ps` is what it comes to next. -/
structure Reaches (m : Machine) (a : Abrupt) (ps : List Pending) : Prop where
  control : m.control = .abrupt a
  pending : m.pending = ps

/-- The value of a `return` that is about to end an activation. -/
def returning? (m : Machine) : Option Value :=
  match m.control, m.pending with
  | .abrupt (.returned v), .leave :: _ => some v
  | _, _ => none

variable {e : Setting} {m : Machine}

lemma reaches_of_returning? {v : Value} (h : m.returning? = some v) :
    ∃ ps, m.Reaches (.returned v) (.leave :: ps) := by
  simp only [returning?] at h
  split at h
  case h_2 => cases h
  case h_1 w ps control pending =>
    cases h
    exact ⟨ps, control, pending⟩

lemma Orderly.lets {outer : Context} {a : Abrupt} {ps : List Pending} (h : Orderly e outer m)
    (reaches : m.Reaches a ps) : (around outer ps).lets a = true := by
  have control := h.control
  rwa [reaches.control, reaches.pending] at control

lemma orderly_of_nothing_left (outer : Context) (store : Store) (calls : CallStack)
    (output : String) : Orderly e outer ⟨store, calls, output, .done, []⟩ := ⟨trivial, trivial⟩

variable (hw : e.tree.WellFormed)
  (root : Legal e.tree.kind ⟨false, false⟩ (e.tree.size - 1))
include hw root

/-- The body of every closure may stand in a function. -/
lemma legal_closure {s : Store} (h : s.Scoped e) (ref : Ref) :
    ∀ id ∈ e.tree.blockBody (s.closure ref).body, Legal e.tree.kind ⟨true, false⟩ id := by
  rcases (h.closure ref).2 with ⟨function, kind⟩ | none
  · have body : (e.tree.kind function).functionBody? = some (s.closure ref).body := by
      rcases kind with ⟨name, params, kind⟩ | ⟨name, params, kind⟩ <;> rw [kind] <;> rfl
    exact Tree.legal_blockBody (hw.legal_functionBody root body)
  · rw [none]
    intro id hid
    have child : id ∈ e.tree.children 0 := by
      simp only [Tree.blockBody] at hid
      split at hid
      case h_1 body kind =>
        rw [Tree.children, kind]
        exact hid
      case h_2 => cases hid
    exact absurd (hw.child_lt 0 id child) (Nat.not_lt_zero id)

theorem Orderly.steps {outer : Context} (h : Orderly e outer m)
    (store : ∀ n, (m.steps e n).store.Scoped e)
    (inside : outer.inFunction = true ∨ Balanced m) (n : Nat) :
    (m.steps e n).Orderly e outer := by
  induction n with
  | zero => exact h
  | succ n ih =>
    rw [steps_succ]
    refine ih.step (legal_closure hw root (store n)) (inside.imp_right fun balanced hf => ?_)
    have balanced := steps_preserve (e := e) (fun _ hm => hm.step) balanced n
    obtain ⟨ps, hp⟩ := balanced.last.resolve_left (by simp [hf])
    rw [hp]
    simp

end Machine

namespace Interpreter

open Machine

variable {i : Interpreter}

section

variable (hw : i.tree.WellFormed) (root : Legal i.tree.kind ⟨false, false⟩ (i.tree.size - 1))
include hw root

lemma legal_body : ∀ id ∈ i.body, Legal i.tree.kind ⟨false, false⟩ id := by
  obtain ⟨body, program⟩ := hw.program
  obtain ⟨n, size, last⟩ := hw.root
  have own : i.root = i.tree.size - 1 := by rw [Interpreter.root, last, size]; rfl
  rw [Interpreter.body, programBody, own, program]
  exact root.statements (.inl program)

lemma orderly_startProgram (scope : ScopeId) (halt : Node → Bool) :
    (i.startProgram scope halt).Orderly (i.setting halt) ⟨false, false⟩ := by
  by_cases room : 0 < i.maxDepth
  · obtain ⟨calls, -, -, hstart⟩ := i.startProgram_of_room scope halt room
    have entered : Orderly (i.setting halt) ⟨false, false⟩
        ⟨i.store.hoist (i.setting halt) scope i.body, calls, "", .done, [.leave]⟩ :=
      ⟨trivial, trivial, trivial⟩
    rw [hstart]
    exact entered.runStatements (legal_body hw root)
  · rw [i.startProgram_of_full scope halt room]
    exact (orderly_of_nothing_left _ i.store _ _).throwFault _

lemma orderly_startFunction (h : i.store.Scoped (i.setting neverHalt)) (f : Value)
    (output : String) :
    (Callable.start ⟨i, f, output⟩).Orderly (i.setting neverHalt) ⟨true, false⟩ := by
  obtain ⟨ref, closure⟩ := exists_closure ⟨i, f, output⟩
  have legal := legal_closure (e := i.setting neverHalt) hw root h ref
  have idle := orderly_of_nothing_left (e := i.setting neverHalt) ⟨true, false⟩
  rw [Callable.start, closure]
  exact enterFunction_cases (m := { i.idle with output }) (i.store.closure ref) [] _
    (fun calls _ => (idle _ calls output).runBody legal) ((idle _ _ output).throwFault _)

end

lemma orderly_startExpression (e : Setting) (scope : ScopeId) (id : NodeId) :
    (i.startExpression scope id).Orderly e ⟨false, false⟩ := by
  have idle : i.idle.Orderly e ⟨false, false⟩ := orderly_of_nothing_left _ i.store _ _
  simp only [startExpression, enter]
  split
  · exact ⟨trivial, trivial, trivial⟩
  · exact idle.throwFault _

section

variable {low : ScopeId} {t : Tree} (holds : Holds low t i)
include holds

variable (hw : t.WellFormed) (root : Legal t.kind ⟨false, false⟩ (t.size - 1))
include hw root

lemma Holds.orderly_steps {e : Setting} {m : Machine} (starts : i.Starts low e m) {outer : Context}
    (start : m.Orderly e outer) (inside : outer.inFunction = true ∨ Balanced m) (n : Nat) :
    (m.steps e n).Orderly e outer := by
  obtain ⟨tree, store⟩ := holds.scoped
  have same := starts.tree_eq.trans tree
  exact start.steps (same ▸ hw) (same ▸ root)
    (fun n => (starts.scoped_steps (store _ same) n).store) inside n

lemma Holds.orderly_program {scope : ScopeId} (above : low ≤ scope)
    (inside : scope < i.store.scopes.size) (halt : Node → Bool) (n : Nat) :
    ((i.startProgram scope halt).steps (i.setting halt) n).Orderly (i.setting halt)
      ⟨false, false⟩ := by
  have tree := holds.scoped.1
  exact holds.orderly_steps hw root (.program above inside halt)
    (orderly_startProgram (tree ▸ hw) (tree ▸ root) scope halt)
    (.inr (balanced_startProgram i scope halt)) n

lemma Holds.orderly_function (f : Value) (output : String) (n : Nat) :
    ((Callable.start ⟨i, f, output⟩).steps (i.setting neverHalt) n).Orderly
      (i.setting neverHalt) ⟨true, false⟩ := by
  obtain ⟨tree, store⟩ := holds.scoped
  exact holds.orderly_steps hw root (.function f output)
    (orderly_startFunction (tree ▸ hw) (tree ▸ root) (store _ tree) f output) (.inl rfl) n

/-- Whatever is run, an activation ends normally, with a return, an error or a halt. -/
lemma Holds.endsFunction {e : Setting} {m : Machine} (starts : i.Starts low e m) {n : Nat}
    {a : Abrupt} {ps : List Pending} (reaches : (m.steps e n).Reaches a (.leave :: ps)) :
    a.endsFunction = true := by
  have orderly : ∃ outer, (m.steps e n).Orderly e outer := by
    cases starts with
    | program above inside halt =>
      exact ⟨_, holds.orderly_program hw root above inside halt n⟩
    | @expression scope above inside id =>
      exact ⟨_, holds.orderly_steps hw root (.expression above inside id)
        (orderly_startExpression _ scope id) (.inr (balanced_startExpression scope id)) n⟩
    | function f output => exact ⟨_, holds.orderly_function hw root f output n⟩
  obtain ⟨outer, orderly⟩ := orderly
  exact Context.endsFunction_of_lets (orderly.lets reaches) rfl

end

/-- In a text that parses, `break` and `continue` stand in the body of a loop with no function in
between and `return` in the body of a function. So in every run of it, in whatever scope, the
program ends normally, with an error or with a halt, and a function besides with a return: no other
jump reaches the end of an activation. -/
theorem no_stray_jump {text : String} {options : ParseOptions} {t : Tree}
    (parsed : Tree.parse text options = .ok t) (tags : List NodeId)
    (holds : Holds 0 (tags.foldl Tree.tag t) i) :
    (∀ id, (t.kind id = .breakStatement ∨ t.kind id = .continueStatement → t.InLoop id) ∧
      ∀ argument, t.kind id = .returnStatement argument → t.InFunction id) ∧
    (∀ scope, scope < i.store.scopes.size → ∀ halt n a ps,
      ((i.startProgram scope halt).steps (i.setting halt) n).Reaches a ps →
        ps = [] ∨ ps = [.leave] → a.endsProgram = true) ∧
    (∀ e m, i.Starts 0 e m → ∀ n a ps, (m.steps e n).Reaches a (.leave :: ps) →
      a.endsFunction = true) ∧
    ∀ f output n a,
      ((Callable.start ⟨i, f, output⟩).steps (i.setting neverHalt) n).Reaches a [] →
        a.endsFunction = true := by
  have hw := (Tree.wellFormed_of_parse parsed).tags tags
  have root : Legal (tags.foldl Tree.tag t).kind ⟨false, false⟩
      ((tags.foldl Tree.tag t).size - 1) := by
    rw [Tree.size_tags, funext (Tree.kind_tags tags)]
    exact Grammar.legal_of_parse parsed
  refine ⟨Tree.jumps_of_parse parsed, fun scope inside halt n a ps reaches atEnd => ?_,
    fun e m starts n a ps reaches => holds.endsFunction hw root starts reaches,
    fun f output n a reaches => ?_⟩
  · have lets := (holds.orderly_program hw root (Nat.zero_le _) inside halt n).lets reaches
    rcases atEnd with rfl | rfl
    · exact Context.endsProgram_of_lets lets
    · exact Context.endsProgram_of_lets lets
  · exact Context.endsFunction_of_lets ((holds.orderly_function hw root f output n).lets reaches)
      rfl

/-- A function that breaks out of a loop and then returns: the `break` has its loop, the `return`
has its function, and what reaches the end of the call is the `return`. -/
theorem no_stray_jump_break_then_return :
    ∃ (t : Tree) (i : Interpreter) (m : Machine) (argument : Option NodeId),
      Tree.parse "function f(x) { while (x) { break; } return x; } f(true);" = .ok t ∧
      Holds 0 t i ∧ i.Starts 0 (i.setting neverHalt) m ∧
      t.kind 3 = .breakStatement ∧ t.InLoop 3 ∧
      t.kind 7 = .returnStatement argument ∧ t.InFunction 7 ∧
      ∃ v ps, (m.steps (i.setting neverHalt) 21).Reaches (.returned v) (.leave :: ps) ∧
        (Abrupt.returned v).endsFunction = true := by
  let text := "function f(x) { while (x) { break; } return x; } f(true);"
  let run (t : Tree) : Machine :=
    let i := (ofTree t text false 10).newProgramScope
    (i.1.startProgram i.2 neverHalt).steps (i.1.setting neverHalt) 21
  have kinds : ((Tree.parse text).toOption.map fun t =>
      match t.kind 3, t.kind 7 with
      | .breakStatement, .returnStatement _ => true
      | _, _ => false) = some true := by decide +kernel
  have state : ((Tree.parse text).toOption.map fun t => (run t).returning?.isSome) = some true := by
    decide +kernel
  cases parsed : Tree.parse text with
  | error e => simp [parsed, Except.toOption] at kinds
  | ok t =>
    simp only [parsed, Except.toOption, Option.map_some, Option.some.injEq] at kinds state
    have holds : Holds 0 t (ofTree t text false 10).newProgramScope.1 := (Holds.built ..).scope
    have starts := Starts.program (Nat.zero_le _) (ofTree t text false 10).newProgramScope_lt
      neverHalt
    obtain ⟨jumps, -, ends, -⟩ := no_stray_jump parsed [] holds
    split at kinds
    case h_2 => cases kinds
    case h_1 argument hbreak hreturn =>
      obtain ⟨v, returning⟩ := Option.isSome_iff_exists.mp state
      obtain ⟨ps, reaches⟩ := reaches_of_returning? returning
      exact ⟨t, _, _, argument, rfl, holds, starts, hbreak, (jumps 3).1 (.inl hbreak), hreturn,
        (jumps 7).2 argument hreturn, v, ps, reaches, ends _ _ starts 21 _ _ reaches⟩

end Interpreter

end ScriptDebugger
