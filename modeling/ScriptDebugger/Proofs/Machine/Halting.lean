import Mathlib.Data.Nat.Find
import ScriptDebugger.Proofs.Machine.Agreement
import ScriptDebugger.Proofs.Machine.Balance

/-!
# Halting before statements

A halt predicate is asked before a statement is executed and before the body of
a function is entered, and nowhere else. While it says no, a run takes the
steps of the run that never halts; once it says yes, the run unwinds to its end
and neither writes output nor changes the store on the way. So halting only
cuts a run short.
-/

namespace ScriptDebugger

/-- Whether an abrupt end passes every entry that waits. -/
def Abrupt.isUncaught : Abrupt → Bool
  | .thrown .. | .halted .. => true
  | _ => false

namespace Machine

variable {e e' : Setting} {m : Machine}

/-- Whether the next step halts the run at a breakpoint. -/
def Stops (e : Setting) (m : Machine) : Prop :=
  ∃ id, m.consulted? = some id ∧ haltsAt e id = true

/-- A setting that never halts takes the same step unless the run stops there. -/
lemma step_never (h : e.Agrees e') (suspends : e'.suspends = e.suspends)
    (never : ∀ id, haltsAt e' id = false) (hm : ¬ Stops e m) : m.step e' = m.step e := by
  refine step_agrees h (fun _ _ _ => suspends) fun id hid => ?_
  rw [never id]
  cases hh : haltsAt e id with
  | false => rfl
  | true => exact absurd ⟨id, hid, hh⟩ hm

lemma steps_never (h : e.Agrees e') (suspends : e'.suspends = e.suspends)
    (never : ∀ id, haltsAt e' id = false) {n : Nat}
    (hm : ∀ k < n, ¬ Stops e (m.steps e k)) : m.steps e' n = m.steps e n := by
  induction n with
  | zero => rfl
  | succ n ih =>
    rw [steps_succ, steps_succ, ih fun k hk => hm k (by omega)]
    exact step_never h suspends never (hm n (by omega))

lemma isFinal_of_consulted {id : NodeId} (hc : m.consulted? = some id) : m.isFinal = false := by
  obtain ⟨store, calls, output, control, pending⟩ := m
  cases pending with
  | nil => cases control <;> first | rfl | simp [consulted?, called?] at hc
  | cons p ps => rfl

/-- At a stop, the program counter of the innermost activation is at the node that halts the
run. -/
lemma step_of_stops (hb : Balanced m) {id : NodeId} (hc : m.consulted? = some id)
    (hh : haltsAt e id = true) :
    ∃ m' : Machine, m.step e = m'.halt .breakpoint ∧ m'.output = m.output ∧
      m'.calls.top?.map (·.pc) = some id := by
  have running := isFinal_of_consulted hc
  by_cases hexec : m.control = .exec id
  · obtain ⟨a, as, htop⟩ := hb.exists_top running
    obtain ⟨store, calls, output, control, pending⟩ := m
    subst hexec
    refine ⟨Machine.setPc ⟨store, calls, output, .done, pending⟩ id, ?_, rfl, ?_⟩
    · simp only [step, execNode, hh, if_true]
    · have moved : (calls.setPc id).toList = (a :: as).modifyHead fun a => { a with pc := id } := by
        rw [CallStack.setPc, CallStack.toList_modifyTop, htop]
      simp [Machine.setPc, CallStack.top?_eq_head?, moved]
  · have hcalled : m.calls.depth < m.calls.maxDepth ∧ ∃ c, m.called? = some c ∧ c.body = id := by
      unfold consulted? at hc
      split at hc
      case h_1 id' hcontrol => exact absurd (hcontrol.trans (by rw [Option.some.inj hc])) hexec
      case h_2 =>
        rw [Option.ite_none_right_eq_some] at hc
        exact ⟨hc.1, Option.map_eq_some_iff.mp hc.2⟩
    obtain ⟨room, c, hcalled, rfl⟩ := hcalled
    cases step_cases (e := e) running with
    | within called resumed scope => simp [called] at hcalled
    | leave called control ended resumed stop step => simp [called] at hcalled
    | call c' args m' called scope quiet resumed hstep =>
      have same := scope.sameActivation
      have same_closure : c' = c := Option.some.inj (called.symm.trans hcalled)
      subst same_closure
      have room' : m'.calls.depth < m'.calls.maxDepth := by
        rw [same.depth_eq, same.maxDepth]
        exact room
      obtain ⟨calls, htop, -, hbody⟩ := callClosure_of_room (e := e) c' args room'
      refine ⟨⟨enteredStore e m'.store c' args, calls, m'.output, m'.control, .leave :: m'.pending⟩,
        by rw [hstep, hbody, runBody, if_pos hh], quiet, ?_⟩
      simp [CallStack.top?_eq_head?, htop]

lemma step_of_uncaught {a : Abrupt} (ha : a.isUncaught = true) (h : m.control = .abrupt a) :
    (m.step e).control = m.control ∧ (m.step e).output = m.output ∧
      (m.step e).store = m.store ∧ (m.step e).pending = m.pending.tail := by
  obtain ⟨store, calls, output, control, pending⟩ := m
  subst h
  cases pending with
  | nil => exact ⟨rfl, rfl, rfl, rfl⟩
  | cons p ps =>
    cases a with
    | thrown v frames => cases p <;> exact ⟨rfl, rfl, rfl, rfl⟩
    | halted reason frames => cases p <;> exact ⟨rfl, rfl, rfl, rfl⟩
    | _ => cases ha

/-- Nothing takes a halt or a thrown value: it ends every activation, and nothing is written or
stored on the way. -/
lemma steps_of_uncaught {a : Abrupt} (ha : a.isUncaught = true) (h : m.control = .abrupt a)
    (n : Nat) :
    (m.steps e n).control = .abrupt a ∧ (m.steps e n).output = m.output ∧
      (m.steps e n).store = m.store ∧ (m.steps e n).pending = m.pending.drop n := by
  induction n with
  | zero => exact ⟨h, rfl, rfl, rfl⟩
  | succ n ih =>
    obtain ⟨hc, ho, hs, hp⟩ := step_of_uncaught (e := e) ha ih.1
    rw [steps_succ]
    refine ⟨hc.trans ih.1, ho.trans ih.2.1, hs.trans ih.2.2.1, ?_⟩
    rw [hp, ih.2.2.2, List.tail_drop]

lemma isFinal_of_abrupt {a : Abrupt} (h : m.control = .abrupt a) (hp : m.pending = []) :
    m.isFinal = true := by
  obtain ⟨store, calls, output, control, pending⟩ := m
  cases h
  cases hp
  rfl

/-- The first state in which a run stops, at `id`: the run goes on as a snapshot with `id` on top
that passes through all pending work, of which there are `l` entries. -/
structure StopsAt (e : Setting) (m : Machine) (n : Nat) (id : NodeId) (frames : FrameChain)
    (l : Nat) : Prop where
  consulted : (m.steps e n).consulted? = some id
  halts : haltsAt e id = true
  first : ∀ k < n, ∀ j, (m.steps e k).consulted? = some j → haltsAt e j = false
  chained : frames.Chained
  top : frames.top?.map (·.pc) = some id
  control : ∀ k, n < k → (m.steps e k).control = .abrupt (.halted .breakpoint frames)
  output : ∀ k, n < k → (m.steps e k).output = (m.steps e n).output
  final : ∀ k, n + l < k → (m.steps e k).isFinal = true

lemma StopsAt.length_pos {n : Nat} {id : NodeId} {frames : FrameChain} {l : Nat}
    (h : StopsAt e m n id frames l) : 0 < frames.length := by
  obtain ⟨f, hf, -⟩ := Option.map_eq_some_iff.mp h.top
  exact List.length_pos_of_mem (List.mem_of_mem_head? hf)

lemma stopsAt_of_first (hb : Balanced m) {n : Nat} {id : NodeId}
    (hc : (m.steps e n).consulted? = some id) (hh : haltsAt e id = true)
    (first : ∀ k < n, ¬ Stops e (m.steps e k)) : ∃ frames l, StopsAt e m n id frames l := by
  have balanced : Balanced (m.steps e n) := steps_preserve (fun _ h => h.step) hb n
  obtain ⟨stopped, hstep, hout, htop⟩ := step_of_stops balanced hc hh
  have later (k : Nat) (hk : n < k) :
      m.steps e k = (stopped.halt .breakpoint).steps e (k - (n + 1)) := by
    have split : k = (n + 1) + (k - (n + 1)) := by omega
    conv => lhs; rw [split, steps_add, steps_succ, hstep]
  have unwound := steps_of_uncaught (e := e) (m := stopped.halt .breakpoint) rfl rfl
  refine ⟨stopped.calls.capture, stopped.pending.length, hc, hh, fun k hk j hj => ?_,
    stopped.calls.capture_chained, ?_, fun k hk => ?_, fun k hk => ?_, fun k hk => ?_⟩
  · cases hh' : haltsAt e j with
    | false => rfl
    | true => exact absurd ⟨j, hj, hh'⟩ (first k hk)
  · have same := congrArg (Option.map Prod.fst) (CallStack.top?_capture stopped.calls)
    rw [Option.map_map, Option.map_map] at same
    exact same.trans htop
  · rw [later k hk]
    exact (unwound _).1
  · rw [later k hk]
    exact (unwound _).2.1.trans hout
  · rw [later k (by omega)]
    refine isFinal_of_abrupt (unwound _).1 ?_
    rw [(unwound _).2.2.2]
    exact List.drop_eq_nil_of_le (by simp only [Machine.halt, Machine.goTo]; omega)

/-- A run either never stops at a breakpoint, or there is a first state at which it does. -/
lemma stops_cases (e : Setting) (hb : Balanced m) (n : Nat) :
    (∀ k < n, ¬ Stops e (m.steps e k)) ∨ ∃ k < n, ∃ id frames l, StopsAt e m k id frames l := by
  classical
  by_cases h : ∃ k, k < n ∧ Stops e (m.steps e k)
  · obtain ⟨hk, id, hid, hh⟩ := Nat.find_spec h
    refine .inr ⟨Nat.find h, hk, id, stopsAt_of_first hb hid hh fun j hj hs => ?_⟩
    exact Nat.find_min h hj ⟨by omega, hs⟩
  · exact .inl fun k hk hs => h ⟨k, hk, hs⟩

lemma StopsAt.not_stops {n : Nat} {id : NodeId} {frames : FrameChain} {l : Nat}
    (h : StopsAt e m n id frames l) : ∀ k < n, ¬ Stops e (m.steps e k) := by
  rintro k hk ⟨j, hj, hh⟩
  rw [h.first k hk j hj] at hh
  cases hh

/-- A run that never halts does not end at a breakpoint. -/
lemma stop?_of_never (never : ∀ id, haltsAt e id = false) (hm : m.control.stop? = none) (n : Nat) :
    (m.steps e n).control.stop? ≠ some .breakpoint := by
  intro hs
  rcases (follows_steps m n).stop hs with hs | ⟨id, hid⟩
  · rw [hm] at hs
    cases hs
  · rw [never id] at hid
    cases hid

/-- The two ways in which a run compares with the one that never halts: they are the same, or they
are the same up to a state in which the one stops. -/
lemma run_cases (h : e.Agrees e') (suspends : e'.suspends = e.suspends)
    (never : ∀ id, haltsAt e' id = false) (hb : Balanced m) (hm : m.control.stop? = none)
    {m' : Machine} {fuel : Nat} (hrun : m.run e fuel = some m') :
    (m.run e' fuel = some m' ∧ m'.control.stop? ≠ some .breakpoint) ∨
      ∃ n id frames l, StopsAt e m n id frames l ∧ m.steps e' n = m.steps e n ∧
        m'.control = .abrupt (.halted .breakpoint frames) ∧ m'.output = (m.steps e n).output := by
  obtain ⟨hf, n, hn, hend⟩ := run_eq_some_iff.mp hrun
  rcases stops_cases e hb n with hnone | ⟨k, hk, id, frames, l, stop⟩
  · have same := steps_never h suspends never hnone
    rw [hend] at same
    refine .inl ⟨run_eq_some_iff.mpr ⟨hf, n, hn, same⟩, ?_⟩
    rw [← same]
    exact stop?_of_never never hm n
  · refine .inr ⟨k, id, frames, l, stop, steps_never h suspends never stop.not_stops, ?_, ?_⟩
    · rw [← hend]
      exact stop.control n hk
    · rw [← hend]
      exact stop.output n hk

end Machine

namespace Interpreter

open Machine

variable (i : Interpreter)

/-- The state of a run of the program after `n` steps. -/
def stateAt (scope : ScopeId) (halt : Node → Bool) (n : Nat) : Machine :=
  (i.startProgram scope halt).steps (i.setting halt) n

/-- The halt predicate that never says yes. -/
def neverHalt : Node → Bool := fun _ => false

lemma agrees_neverHalt (halt : Node → Bool) :
    (i.setting halt).Agrees (i.setting neverHalt) := ⟨fun _ => rfl, fun _ => rfl, rfl, rfl⟩

lemma haltsAt_neverHalt (id : NodeId) : haltsAt (i.setting neverHalt) id = false := by
  cases h : i.tree.node? id <;> simp [haltsAt, setting, h, neverHalt]

/-- Where a program starts does not depend on the nodes at which it would halt. -/
lemma startProgram_agrees {i i' : Interpreter} {halt halt' : Node → Bool}
    (h : (i.setting halt).Agrees (i'.setting halt')) (root : i'.tree.root = i.tree.root)
    (store : i'.store = i.store) (maxDepth : i'.maxDepth = i.maxDepth) (scope : ScopeId) :
    i'.startProgram scope halt' = i.startProgram scope halt := by
  have kind (id : NodeId) : i'.tree.kind id = i.tree.kind id := h.kind id
  simp only [startProgram, programBody, idle, root, store, maxDepth, kind, h.hoist]

lemma runProgram_eq_some {fuel : Nat} {scope : ScopeId} {halt : Node → Bool} {r : Run} :
    i.runProgram fuel scope halt = some r ↔
      ∃ m, (i.startProgram scope halt).run (i.setting halt) fuel = some m ∧
        r = { interpreter := { i with store := m.store }, outcome := outcomeOf scope m,
              output := m.output } := by
  simp only [runProgram, Option.map_eq_some_iff]
  exact exists_congr fun m => and_congr_right fun _ => eq_comm

lemma outcomeOf_eq_halted {scope : ScopeId} {m : Machine} {reason : HaltReason}
    {frames : FrameChain} :
    outcomeOf scope m = .halted reason frames ↔ m.control = .abrupt (.halted reason frames) := by
  obtain ⟨store, calls, output, control, pending⟩ := m
  cases control with
  | abrupt a => cases a <;> simp [outcomeOf]
  | _ => simp [outcomeOf]

/-- Halting only cuts a run short. A run that does not end at a breakpoint is the run that never
halts, with all that it leaves behind. A run that does ends at the first node that was asked about
and for which the predicate holds, and what it has written by then is the beginning of what the run
that never halts writes. -/
theorem runProgram_cut_short {fuel : Nat} {scope : ScopeId} {halt : Node → Bool} {r : Run}
    (hr : i.runProgram fuel scope halt = some r) :
    ((∀ frames, r.outcome ≠ .halted .breakpoint frames) →
      i.runProgram fuel scope neverHalt = some r) ∧
    ∀ frames, r.outcome = .halted .breakpoint frames →
      ∃ n f node, frames.top? = some f ∧ i.tree.node? f.pc = some node ∧ halt node = true ∧
        (i.stateAt scope halt n).consulted? = some f.pc ∧
        (∀ k < n, ∀ id, (i.stateAt scope halt k).consulted? = some id →
          haltsAt (i.setting halt) id = false) ∧
        ∀ fuel' r', i.runProgram fuel' scope neverHalt = some r' →
          ∃ rest, r'.output = r.output ++ rest := by
  obtain ⟨m, hrun, rfl⟩ := i.runProgram_eq_some.mp hr
  have start := startProgram_agrees (i.agrees_neverHalt halt) rfl rfl rfl scope
  have compared := run_cases (i.agrees_neverHalt halt) rfl i.haltsAt_neverHalt
    (i.balanced_startProgram scope halt) (i.stop?_startProgram scope halt) hrun
  refine ⟨fun hne => ?_, fun frames hframes => ?_⟩
  · rcases compared with ⟨same, -⟩ | ⟨n, id, frames, l, -, -, hcontrol, -⟩
    · rw [← start] at same
      exact i.runProgram_eq_some.mpr ⟨m, same, rfl⟩
    · exact absurd (outcomeOf_eq_halted.mpr hcontrol) (hne frames)
  · have hcontrol := outcomeOf_eq_halted.mp hframes
    rcases compared with ⟨-, hne⟩ | ⟨n, id, frames', l, stop, same, hcontrol', hout⟩
    · rw [hcontrol] at hne
      exact absurd rfl hne
    · rw [hcontrol] at hcontrol'
      cases hcontrol'
      obtain ⟨f, hf, rfl⟩ := Option.map_eq_some_iff.mp stop.top
      obtain ⟨node, hnode, hhalt⟩ : ∃ node, i.tree.node? f.pc = some node ∧ halt node = true := by
        simpa [haltsAt, setting, Option.any_eq_true] using stop.halts
      refine ⟨n, f, node, hf, hnode, hhalt, stop.consulted, stop.first, fun fuel' r' hr' => ?_⟩
      obtain ⟨m', hrun', rfl⟩ := i.runProgram_eq_some.mp hr'
      rw [start] at hrun'
      have later := follows_steps (e := i.setting neverHalt)
        ((i.startProgram scope halt).steps (i.setting halt) n)
      obtain ⟨-, k, hk⟩ := (ends_of_run hrun').steps n
      rw [same] at hk
      obtain ⟨rest, hrest⟩ := (later k).output
      rw [hk, ← hout] at hrest
      exact ⟨rest, hrest⟩

/-- A breakpoint on the second of two statements. -/
theorem runProgram_cut_short_second_statement :
    ∃ tree r frames f node, Tree.parse "1;\n2;" = .ok tree ∧
      ((ofTree tree "1;\n2;" false 1).newProgramScope.1.runProgram 15 1
        (fun n => n.startLine == some 2) = some r ∧ r.outcome = .halted .breakpoint frames) ∧
      frames.top? = some f ∧ tree.node? f.pc = some node ∧ (node.startLine == some 2) = true := by
  have parses : (Tree.parse "1;\n2;").toOption.isSome = true := by decide +kernel
  have halts : ((Tree.parse "1;\n2;").toOption.bind fun tree =>
      ((ofTree tree "1;\n2;" false 1).newProgramScope.1.runProgram 15 1
        (fun n => n.startLine == some 2)).map fun r => r.outcome matches .halted .breakpoint _) =
      some true := by decide +kernel
  cases htree : Tree.parse "1;\n2;" with
  | error e => simp [htree, Except.toOption] at parses
  | ok tree =>
    rw [htree] at halts
    obtain ⟨r, hr, hout⟩ := Option.map_eq_some_iff.mp halts
    split at hout
    case h_1 frames hframes =>
      obtain ⟨-, f, node, hf, hnode, hhalt, -⟩ := (runProgram_cut_short _ hr).2 frames hframes
      exact ⟨tree, r, frames, f, node, rfl, ⟨hr, hframes⟩, hf, hnode, hhalt⟩
    case h_2 => cases hout

end Interpreter

end ScriptDebugger
