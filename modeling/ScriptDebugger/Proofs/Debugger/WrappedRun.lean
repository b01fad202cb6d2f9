import ScriptDebugger.Proofs.Debugger.NestedDisplay
import ScriptDebugger.Proofs.Debugger.WrappedCall
import ScriptDebugger.Proofs.Machine.NestedRun

/-!
# Runs of wrapped texts

The function around a text runs as the text does on its own, inside one function
more.
-/

namespace ScriptDebugger

open Machine

lemma Config.slice_wrap {text : String} {s : Span} (hstart : Boundary text.toList s.start)
    (hstop : Boundary text.toList s.stop) :
    (s.move (bodyOffset + ·)).slice (standard.wrap text) = s.slice text := by
  have before : byteLength (standard.opening ++ "\n").toList = bodyOffset := by
    rw [byteLength_toList]
    rfl
  have split : (standard.wrap text).toList =
      (standard.opening ++ "\n").toList ++ text.toList ++ standard.closing.toList := by
    rw [wrap, String.toList_append, String.toList_append]
  rw [Span.slice, Span.slice, split, Span.move, ← before]
  exact congrArg String.ofList (sliceBytes_inside hstart hstop _ _)

/-- The tree and text of an interpreter that stops at no breakpoint. -/
def quietSetting (t : Tree) (text : String) (suspends : Bool) : Setting :=
  { tree := t, source := text, halt := fun _ => false, suspends }

lemma haltsAt_quietSetting (t : Tree) (text : String) (suspends : Bool) (id : NodeId) :
    haltsAt (quietSetting t text suspends) id = false := by
  simp [haltsAt, quietSetting]

lemma Tree.Wraps.nests {t t' : Tree} {text : String} {n : NodeId}
    (wraps : t.Wraps (Config.bodyOffset + ·) t' n) (hw : t.WellFormed)
    (boundary : ∀ id < n, Boundary text.toList (t.span id).start ∧
      Boundary text.toList (t.span id).stop) (function : Closure) (suspends : Bool)
    (stops : ∀ id, t.kind id = .debuggerStatement → suspends = true) :
    Setting.Nests ⟨function, Config.bodyOffset⟩ (quietSetting t text suspends)
      (quietSetting t' (Config.standard.wrap text) true) := by
  have before {id : Nat} (h : (quietSetting t text suspends).Inside id) : id < n := by
    have inside : id + 1 < t.size := h
    rw [wraps.size] at inside
    exact Nat.lt_of_succ_lt_succ inside
  exact {
    kind := fun id hid => wraps.kind id (before hid)
    child := fun id c hc => hw.child_lt id c hc
    span := fun id hid => wraps.span id (before hid)
    text := by
      intro id hid
      obtain ⟨hstart, hstop⟩ := boundary id (before hid)
      have moved : (t'.span id).slice (Config.standard.wrap text) = (t.span id).slice text := by
        rw [wraps.span id (before hid)]
        exact Config.slice_wrap hstart hstop
      exact moved
    size := by
      have size : t.size ≤ t'.size := by rw [wraps.size, wraps.size']; omega
      exact size
    suspends := fun id hid => (stops id hid).symm
    quiet := haltsAt_quietSetting t text suspends
    quiet' := haltsAt_quietSetting t' _ true }

/-- The store of a text that is about to run as the body of a function that has just been made in
the scope of another program, and called. -/
lemma Store.nested_start (n : Nesting) :
    (initial.newScope (some globalScope)).1.nested n =
      (((initial.newScope (some globalScope)).1.newClosure n.function).1.newScope (some 1)).1 := by
  have arrays : initial.arrays.map (·.map Value.nested) = initial.arrays := Array.map_empty
  have records : initial.records.map Record.nested = initial.records := by
    refine Array.ext' ?_
    rw [Array.toList_map]
    rfl
  have closures : #[n.function] ++ initial.closures.map (Closure.nested n) = #[n.function] := by
    have none : initial.closures = #[] := rfl
    rw [none, Array.map_empty, Array.append_empty]
  have builtins : initial.builtins.map BoundBuiltin.nested = initial.builtins := by
    refine Array.ext' ?_
    rw [Array.toList_map]
    rfl
  have scopes : ((initial.newScope (some globalScope)).1.nested n).scopes =
      (initial.scopes.push (.empty (some globalScope))).push (.empty (some 1)) := by
    have size : 1 ≤ (initial.newScope (some globalScope)).1.scopes.size := Nat.le_add_left 1 1
    refine Array.ext_getElem? fun i => ?_
    rw [getElem?_scopes_nested n size]
    rcases i with _ | _ | _ | i
    · rfl
    · rfl
    · rfl
    · rw [if_neg (by omega), Array.getElem?_eq_none, Array.getElem?_eq_none]
      · rfl
      · exact Nat.le_add_left 3 i
      · exact Nat.le_add_left 2 i
  calc (initial.newScope (some globalScope)).1.nested n
      = ⟨initial.arrays.map (·.map Value.nested), initial.records.map Record.nested,
          #[n.function] ++ initial.closures.map (Closure.nested n),
          initial.builtins.map BoundBuiltin.nested, initial.errors,
          ((initial.newScope (some globalScope)).1.nested n).scopes⟩ := rfl
    _ = _ := by rw [arrays, records, closures, builtins, scopes]; rfl

/-- The interpreter of a text that runs on its own. -/
def Interpreter.alone (t : Tree) (text : String) (suspends : Bool) (maxDepth : Nat) :
    Interpreter := (ofTree t text suspends maxDepth).newProgramScope.1

/-- The function around a text, and what stands before the text. -/
def Interpreter.nesting (t' : Tree) (text : String) (maxDepth : Nat) (n : NodeId) : Nesting :=
  ⟨(ofTree t' (Config.standard.wrap text) true maxDepth).wrapper n, Config.bodyOffset⟩

/-- A run of a text on its own, which `debugger` statements halt if `suspends` says so. -/
structure Interpreter.Wrapping (t t' : Tree) (text : String) (suspends : Bool) (maxDepth : Nat)
    (n : NodeId) : Prop where
  wraps : t.Wraps (Config.bodyOffset + ·) t' n
  wellFormed : t.WellFormed
  boundary : ∀ id < n, Boundary text.toList (t.span id).start ∧
    Boundary text.toList (t.span id).stop
  stops : ∀ id, t.kind id = .debuggerStatement → suspends = true
  room : 0 < maxDepth

namespace Interpreter

variable {t t' : Tree} {text : String} {suspends : Bool} {maxDepth : Nat} {n : NodeId}

/-- The machine of a text on its own starts in the program's scope. -/
lemma start_alone (t : Tree) (text : String) (suspends : Bool) (room : 0 < maxDepth) :
    ∃ calls : CallStack, calls.toList = [⟨t.root.getD 0, 1, none⟩] ∧ calls.maxDepth = maxDepth ∧
      (alone t text suspends maxDepth).startProgram 1 (fun _ => false) =
        Machine.runStatements ⟨(alone t text suspends maxDepth).store.hoist
          (quietSetting t text suspends) 1 (programBody t (t.root.getD 0)), calls, "", .done,
          [.leave]⟩ (programBody t (t.root.getD 0)) :=
  (alone t text suspends maxDepth).startProgram_of_room 1 (fun _ => false) room

/-- The function around a text starts in a scope of its own, inside that of the program. -/
lemma start_wrapped (t' : Tree) (text : String) (n : NodeId) (room : 0 < maxDepth) :
    ∃ calls : CallStack, calls.toList = [⟨n, 2, none⟩] ∧ calls.maxDepth = maxDepth ∧
      (wrapped t' (Config.standard.wrap text) maxDepth n).start =
        Machine.runStatements ⟨((((Store.initial.newScope (some globalScope)).1.newClosure
          (nesting t' text maxDepth n).function).1.newScope (some 1)).1).hoist
          (quietSetting t' (Config.standard.wrap text) true) 2 (t'.blockBody n), calls, "", .done,
          []⟩ (t'.blockBody n) := by
  let e := quietSetting t' (Config.standard.wrap text) true
  let c := wrapped t' (Config.standard.wrap text) maxDepth n
  let idle : Machine := { c.interpreter.idle with output := c.output }
  obtain ⟨calls, hcalls, hmax, hstart⟩ := enterFunction_of_room (e := e) (m := idle) c.closure []
    (Machine.runBody e c.closure.body) room
  refine ⟨calls, hcalls, hmax, ?_⟩
  have start : c.start = idle.enterFunction e c.closure [] (Machine.runBody e c.closure.body) := rfl
  rw [start, hstart, Machine.runBody, haltsAt_quietSetting]
  rfl

section

variable (h : Wrapping t t' text suspends maxDepth n)
include h

lemma Wrapping.nests : Setting.Nests (nesting t' text maxDepth n) (quietSetting t text suspends)
    (quietSetting t' (Config.standard.wrap text) true) :=
  h.wraps.nests h.wellFormed h.boundary _ suspends h.stops

/-- The function around the text starts as the text does on its own. -/
lemma Wrapping.start :
    ((alone t text suspends maxDepth).startProgram 1 fun _ => false).Nests
      (nesting t' text maxDepth n) (wrapped t' (Config.standard.wrap text) maxDepth n).start := by
  obtain ⟨calls, hcalls, hmax, hstart⟩ := start_alone t text suspends h.room
  obtain ⟨calls', hcalls', hmax', hstart'⟩ := start_wrapped t' text n h.room
  obtain ⟨ids, program, block⟩ := h.wraps.body
  have root : t.root.getD 0 = n := by rw [h.wraps.root, Option.getD_some]
  have body : programBody t (t.root.getD 0) = ids := by rw [root, programBody, program]
  have body' : t'.blockBody n = ids := by rw [Tree.blockBody, block]
  have inside : ∀ id ∈ ids, (quietSetting t text suspends).Inside id := by
    intro id hid
    have lt := h.wellFormed.child_lt n id (by simpa [Tree.children, program, NodeKind.children])
    have size : id + 1 < t.size := by rw [h.wraps.size]; exact Nat.succ_lt_succ lt
    exact size
  have entered : Machine.Nests (nesting t' text maxDepth n)
      ⟨(Store.initial.newScope (some globalScope)).1, calls, "", .done, [.leave]⟩
      ⟨(((Store.initial.newScope (some globalScope)).1.newClosure
          (nesting t' text maxDepth n).function).1.newScope (some 1)).1, calls', "", .done, []⟩ :=
    { store := (Store.nested_start (nesting t' text maxDepth n)).symm
      calls := by
        refine CallStack.ext_toList ?_ (hmax'.trans hmax.symm)
        rw [hcalls', CallStack.toList_nested, hcalls, root]
        rfl
      output := rfl
      control := rfl
      pending := rfl
      ready := ⟨((Store.scoped_initial (quietSetting t text suspends)).newScope
        (Nat.lt_succ_self 0)).older, Nat.le_refl 2⟩ }
  rw [hstart, hstart', body, body']
  exact (entered.hoist h.nests 1 inside).runStatements ids

end

lemma followed_alone (hw : t.WellFormed) (text : String) (suspends : Bool) (room : 0 < maxDepth) :
    ((alone t text suspends maxDepth).startProgram 1 fun _ => false).Followed
      (quietSetting t text suspends) := by
  intro k
  have invariant := invariant (i := alone t text suspends maxDepth) 1 (fun _ => false) hw room k
  have store := (Store.scoped_initial (quietSetting t text suspends)).newScope (Nat.lt_succ_self 0)
  have start := (alone t text suspends maxDepth).scoped_startProgram (fun _ => false) store
    (Nat.lt_succ_self 1)
  exact ⟨⟨_, _, invariant.sound⟩, steps_preserve (fun m hm => hm.step) start k⟩

lemma unwinds_alone (t : Tree) (text : String) (suspends : Bool) (room : 0 < maxDepth) :
    ((alone t text suspends maxDepth).startProgram 1 fun _ => false).Unwinds [.leave]
      [⟨t.root.getD 0, 1, none⟩] := by
  obtain ⟨calls, hcalls, -, hstart⟩ := start_alone t text suspends room
  rw [hstart, ← hcalls]
  exact (unwinds_self _).of_sameScope
    ((SameScope.refl (e := quietSetting t text suspends) _).runStatements _)

end Interpreter

/-- How the run of a function ends, read off the last state of its body. -/
def Machine.reified (m : Machine) : ReifiedOutcome :=
  match m.control with
  | .abrupt (.thrown v frames) => .unwound (.ofValue m.store v) frames
  | .abrupt (.halted _ frames) => .suspended frames
  | _ => .returned m.calls.capture

lemma Callable.run_eq {c : Callable} {fuel : Nat} :
    c.run fuel = (c.start.run c.setting fuel).map fun m =>
      { interpreter := { c.interpreter with store := m.store }, outcome := m.reified
        output := m.output } := by
  rw [Callable.run, Callable.call, Option.map_map]
  rfl

/-- The end inside one function more is the same end, seen from there. -/
lemma Machine.Nests.reified {n : Nesting} {m m' : Machine} (h : m.Nests n m') {pc : NodeId}
    {scope : ScopeId} (top : SameButPc m.calls.toList [⟨pc, scope, none⟩])
    (debugger : ∀ reason frames, m.control = .abrupt (.halted reason frames) →
      reason = .debuggerStatement) :
    m'.reified.toOutcome? = some (Interpreter.outcomeOf scope m).nested := by
  obtain ⟨pc, hcalls⟩ := SameButPc.cons_iff.mp top
  have atEnd : m'.calls.capture.top?.map (fun f => Outcome.completed f.scope) =
      some (.completed (nestedScope scope)) := by
    have frames : m.calls.capture.frames = [⟨pc, scope, none, none⟩] := by
      rw [CallStack.toList] at hcalls
      rw [CallStack.capture, hcalls]
      rfl
    rw [h.calls, CallStack.capture_nested, FrameChain.top?_nested, FrameChain.top?, frames]
    rfl
  obtain ⟨store, calls, output, control, pending⟩ := m
  simp only [Machine.reified, h.control, h.store]
  cases control with
  | abrupt a =>
    cases a with
    | thrown v frames =>
      exact congrArg (fun e => some (Outcome.raised e frames.nested))
        (ThrownError.ofValue_nested n store v)
    | halted reason frames =>
      obtain rfl := debugger reason frames rfl
      rfl
    | _ => exact atEnd
  | _ => exact atEnd

namespace Interpreter

variable {t t' : Tree} {text : String} {suspends : Bool} {maxDepth : Nat} {n : NodeId}

/-- What two runs have in common, one of a text on its own and one of the function around it. -/
structure Alike (t t' : Tree) (n : Nesting) (r : Run) (r' : ReifiedRun) : Prop where
  output : r'.output = r.output
  store : r'.interpreter.store = r.interpreter.store.nested n
  ready : r.interpreter.store.Ready
  tree : r.interpreter.tree = t
  tree' : r'.interpreter.tree = t'
  outcome : r'.outcome.toOutcome? = some r.outcome.nested
  frames : ∀ c, r.outcome.frames? = some c →
    c.Chained ∧ 0 < c.length ∧ ∀ f ∈ c.frames, f.pc + 1 < t.size

/-- The frames of a run without breakpoints stand inside the program. -/
lemma inside_of_runProgram {i : Interpreter} (hw : i.tree.WellFormed) (room : 0 < i.maxDepth)
    {fuel : Nat} {scope : ScopeId} {r : Run} (hr : i.runProgram fuel scope neverHalt = some r)
    {c : FrameChain} (hc : r.outcome.frames? = some c) :
    c.Chained ∧ 0 < c.length ∧ ∀ f ∈ c.frames, f.pc + 1 < i.tree.size := by
  obtain ⟨m, hrun, rfl⟩ := i.runProgram_eq_some.mp hr
  have quiet (id : NodeId) : haltsAt (i.setting neverHalt) id = false := i.haltsAt_neverHalt id
  have hc : (outcomeOf scope m).frames? = some c := hc
  cases outcome : outcomeOf scope m with
  | completed => rw [outcome] at hc; cases hc
  | halted reason frames =>
    rw [outcome] at hc
    cases hc
    obtain ⟨n, seen⟩ := seen_of_run hw room hrun (outcomeOf_eq_halted.mp outcome)
    exact seen.inside hw room quiet (.inr ⟨reason, rfl⟩)
  | raised error frames =>
    rw [outcome] at hc
    cases hc
    obtain ⟨v, control⟩ := control_of_raised outcome
    obtain ⟨n, seen⟩ := seen_of_run hw room hrun control
    exact seen.inside hw room quiet (.inl ⟨v, rfl⟩)

/-- Either neither run ends within its bound, or both do and have the same outcome. -/
theorem Wrapping.run (h : Wrapping t t' text suspends maxDepth n) (fuel : Nat) :
    ((wrapped t' (Config.standard.wrap text) maxDepth n).run fuel = none ∧
        (alone t text suspends maxDepth).runProgram (fuel + 1) 1 neverHalt = none) ∨
      ∃ r r', (alone t text suspends maxDepth).runProgram (fuel + 1) 1 neverHalt = some r ∧
        (wrapped t' (Config.standard.wrap text) maxDepth n).run fuel = some r' ∧
        Alike t t' (nesting t' text maxDepth n) r r' := by
  let i := alone t text suspends maxDepth
  have nests := h.start.run (unwinds_alone t text suspends h.room) h.nests h.wellFormed
    (followed_alone h.wellFormed text suspends h.room) fuel
  rcases nests with ⟨ends', ends⟩ | ⟨mid, mid', ends', ends, nests, back, top⟩
  · refine .inl ⟨?_, ?_⟩
    · rw [Callable.run_eq]
      exact Option.map_eq_none_iff.mpr ends'
    · exact Option.map_eq_none_iff.mpr ends
  · obtain ⟨-, store, output, outcome⟩ :=
      step_of_backAt_leave (e := quietSetting t text suspends) back
    have ends : (i.startProgram 1 neverHalt).run (i.setting neverHalt) (fuel + 1) =
      some (mid.step (quietSetting t text suspends)) := ends
    have ran := i.runProgram_eq_some.mpr ⟨_, ends, rfl⟩
    refine .inr ⟨_, _, ran, by rw [Callable.run_eq]; exact congrArg (Option.map _) ends', ?_⟩
    have debugger (reason : HaltReason) (frames : FrameChain)
        (hc : mid.control = .abrupt (.halted reason frames)) : reason = .debuggerStatement := by
      have halted := (outcome 1).trans (outcomeOf_eq_halted.mpr hc)
      obtain ⟨k, seen⟩ : ∃ k, i.Seen 1 neverHalt k (.halted reason frames) :=
        seen_of_run h.wellFormed h.room ends (outcomeOf_eq_halted.mp halted)
      exact seen.debugger i.haltsAt_neverHalt
    exact {
      output := nests.output.trans output.symm
      store := by
        have same := nests.store
        rw [← store] at same
        exact same
      ready := by
        have ready := nests.ready
        rw [← store] at ready
        exact ready
      tree := rfl
      tree' := rfl
      outcome := by
        have same := nests.reified top debugger
        rw [← outcome 1] at same
        exact same
      frames := fun c hc => inside_of_runProgram (i := i) h.wellFormed h.room ran hc }

end Interpreter

end ScriptDebugger
