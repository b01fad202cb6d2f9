import ScriptDebugger.Proofs.Debugger.Show
import ScriptDebugger.Proofs.Machine.Reached
import ScriptDebugger.Proofs.Syntax.Shape

/-!
# Breakpoints are not stepped over

Before a run evaluates an expression it has asked whether to halt before the
statement around it. So when a statement is tagged for the breakpoint, a step
of the session that would evaluate any part of it stops before it.
-/

namespace ScriptDebugger

namespace Tree

/-- The breakpoint binds to a tree with the same nodes but for a tag. -/
lemma bind_cases (t : Tree) (row : Option Nat) :
    t.bind row = (t, .nowhere) ∨ ∃ id, t.bind row = (t.tag id, .statement id) := by
  simp only [bind]
  split
  case h_1 => exact .inl rfl
  case h_2 id _ => exact .inr ⟨id, rfl⟩

/-- Binding a breakpoint keeps a tree well-formed. -/
lemma WellFormed.bind {t : Tree} (h : t.WellFormed) (row : Option Nat) :
    (t.bind row).1.WellFormed := by
  rcases t.bind_cases row with hb | ⟨tagged, hb⟩
  · rw [hb]
    exact h
  · rw [hb]
    exact h.tag tagged

lemma statementOf_bind (t : Tree) (row : Option Nat) (id : NodeId) :
    (t.bind row).1.statementOf id = t.statementOf id := by
  rcases t.bind_cases row with hb | ⟨tagged, hb⟩
  · rw [hb]
  · rw [hb]
    exact t.statementOf_tag tagged id

end Tree

namespace Interpreter

variable {i : Interpreter}

lemma evaluates_of_eval (hw : i.tree.WellFormed) {scope : ScopeId} {halt : Node → Bool}
    {n : Nat} {id : NodeId} (hc : (i.stateAt scope halt n).control = .eval id) :
    ∃ o, (i.setting halt).Evaluates o id := by
  obtain ⟨os, sound⟩ := sound_stateAt scope halt hw n
  have control := sound.control
  rw [Machine.ControlAt, hc] at control
  obtain ⟨-, o, os', -, evaluates⟩ := control
  exact ⟨o, evaluates⟩

/-- What is evaluated belongs to a statement before which the run does not halt. -/
lemma haltsAt_statementOf (hw : i.tree.WellFormed) {scope : ScopeId} {halt : Node → Bool}
    {n : Nat} {id s : NodeId} (hc : (i.stateAt scope halt n).control = .eval id)
    (hs : i.tree.statementOf id = some s) : Machine.haltsAt (i.setting halt) s = false := by
  obtain ⟨o, evaluates⟩ := evaluates_of_eval hw hc
  exact evaluates.clear s hs

end Interpreter

namespace Session

variable {d : Session} {t : Tree} {s : NodeId}

/-- The tag is not to be seen by the script. -/
lemma agrees_tag (d : Session) (t : Tree) (s : NodeId) (halt : Node → Bool) :
    ((d.interpreter (t.tag s)).setting halt).Agrees
      ((d.interpreter t).setting Interpreter.neverHalt) where
  kind := fun id => (t.kind_tag s id).symm
  span := fun id => (t.span_tag s id).symm
  size := (t.size_tag s).symm
  source := rfl

lemma startProgram_tag (d : Session) (t : Tree) (s : NodeId) (halt : Node → Bool) :
    (d.interpreter t).startProgram (d.programScope t) Interpreter.neverHalt =
      (d.interpreter (t.tag s)).startProgram (d.programScope t) halt :=
  Interpreter.startProgram_agrees (d.agrees_tag t s halt) rfl rfl rfl _

/-- In a new tree only the tagged statement halts a run. -/
lemma eq_of_haltsAt_tag (untagged : ∀ (id : NodeId) n, t.node? id = some n → n.tagged = false)
    {id : NodeId} (h : Machine.haltsAt ((d.interpreter (t.tag s)).setting
      (StopPoint.statement s).halts) id = true) : id = s := by
  obtain ⟨n, hn, htagged⟩ := (Option.any_eq_true ..).mp h
  have htagged : n.tagged = true := htagged
  have hn : (t.tag s).nodes[id]? = some n := hn
  rw [Tree.getElem?_tag, Option.map_eq_some_iff] at hn
  obtain ⟨m, hm, rfl⟩ := hn
  by_contra hne
  rw [if_neg (Ne.symm hne), untagged id m hm] at htagged
  cases htagged

lemma haltsAt_tag {s : Nat} (hs : s < t.size) :
    Machine.haltsAt ((d.interpreter (t.tag s)).setting (StopPoint.statement s).halts) s = true := by
  have hn : (t.tag s).nodes[s]? = some { t.nodes[s] with tagged := true } := by
    rw [Tree.getElem?_tag, Array.getElem?_eq_getElem hs, Option.map_some, if_pos rfl]
  exact (Option.any_eq_true ..).mpr ⟨_, hn, rfl⟩

open Interpreter in
/-- A step that would evaluate a part of the tagged statement stops before the statement. -/
lemma step_stops (parsed : Tree.parse d.editor.text = .ok t)
    (bound : t.bind d.editor.breakpointRow? = (t.tag s, .statement s)) {n : Nat} {id : NodeId}
    (hc : ((d.interpreter t).stateAt (d.programScope t) neverHalt n).control = .eval id)
    (hs : t.statementOf id = some s) :
    ∃ k < n, ((d.interpreter t).stateAt (d.programScope t) neverHalt k).consulted? = some s ∧
      (∀ j ≤ k, ∀ id',
        ((d.interpreter t).stateAt (d.programScope t) neverHalt j).control = .eval id' →
        t.statementOf id' ≠ some s) ∧
      ∃ least, ∀ fuel ≥ least, ∃ r frames d',
        (d.interpreter (t.tag s)).runProgram fuel (d.programScope (t.tag s))
          (StopPoint.statement s).halts = some r ∧
        r.outcome = .halted .breakpoint frames ∧ frames.top?.map (·.pc) = some s ∧
        d.step fuel = some (d', .ok ⟨.halted, r.output⟩) := by
  have hw := Tree.wellFormed_of_parse parsed
  have hw' : (d.interpreter (t.tag s)).tree.WellFormed := hw.tag s
  obtain ⟨o, evaluates⟩ := evaluates_of_eval (i := d.interpreter t) hw hc
  have hsize : s < t.size := hw.lt_size_of_statementOf (Nat.lt_of_succ_lt evaluates.inside) hs
  set start := (d.interpreter t).startProgram (d.programScope t) neverHalt with hstart
  have tagged := d.startProgram_tag t s (StopPoint.statement s).halts
  rw [← hstart] at tagged
  set e := (d.interpreter (t.tag s)).setting (StopPoint.statement s).halts with he
  have balanced : Machine.Balanced start := balanced_startProgram _ _ _
  have same {j : Nat} (hj : ∀ k < j, ¬ Machine.Stops e (start.steps e k)) :
      start.steps ((d.interpreter t).setting neverHalt) j = start.steps e j :=
    Machine.steps_never (d.agrees_tag t s _) rfl (haltsAt_neverHalt _) hj
  -- no state of the run with the breakpoint evaluates a part of the statement
  have other {j : Nat} {id' : NodeId} (hj : (start.steps e j).control = .eval id') :
      t.statementOf id' ≠ some s := by
    intro hs'
    rw [tagged] at hj
    have hs' : (t.tag s).statementOf id' = some s := (t.statementOf_tag s id').trans hs'
    have clear := haltsAt_statementOf hw' hj hs'
    rw [haltsAt_tag hsize] at clear
    cases clear
  rcases Machine.stops_cases e balanced n with hnone | ⟨k, hk, id', frames, l, stop⟩
  · refine absurd hs (other (j := n) ?_)
    rw [← same hnone]
    exact hc
  · have hid := eq_of_haltsAt_tag (fun id n => Tree.untagged_of_parse parsed) stop.halts
    subst hid
    have upTo {j : Nat} (hj : j ≤ k) : (d.interpreter t).stateAt (d.programScope t) neverHalt j =
        start.steps e j := same fun i hi => stop.not_stops i (Nat.lt_of_lt_of_le hi hj)
    refine ⟨k, hk, ?_, fun j hj id'' hc' => ?_, k + l + 1, fun fuel hfuel => ?_⟩
    · rw [upTo (Nat.le_refl k)]
      exact stop.consulted
    · rw [upTo hj] at hc'
      exact other hc'
    · have hrun := Machine.run_eq_some_iff.mpr
        ⟨stop.final fuel hfuel, fuel, Nat.le_refl fuel, rfl⟩
      have control := stop.control fuel (by omega)
      rw [tagged] at hrun control
      obtain ⟨r, hr, houtcome⟩ : ∃ r, (d.interpreter (t.tag id')).runProgram fuel
          (d.programScope (t.tag id')) (StopPoint.statement id').halts = some r ∧
          r.outcome = .halted .breakpoint frames :=
        ⟨_, (runProgram_eq_some _).mpr ⟨_, hrun, rfl⟩, outcomeOf_eq_halted.mpr control⟩
      have valid : r.outcome.Valid := by
        rw [houtcome]
        exact stop.chained.validate stop.length_pos
      obtain ⟨d', hshown⟩ := d.clear.finish_of_valid r.interpreter valid .plain r.output
      refine ⟨r, frames, d', hr, houtcome, stop.top, ?_⟩
      rw [step_of_parse d parsed bound, hr, Option.map_some, hshown, houtcome]
      rfl

open Interpreter in
/-- A breakpoint cannot be stepped over. No run evaluates an expression if its predicate holds of
the statement around it, whether the tree is tagged or not. And when the statement for the
breakpoint is tagged, a step that would evaluate any part of the statement stops before it, having
evaluated no part of it. -/
theorem breakpoint_not_stepped_over :
    (∀ text options t, Tree.parse text options = .ok t →
      ∀ (i : Interpreter) (row : Option Nat), i.tree = (t.bind row).1 →
      ∀ scope halt n id s node, (i.stateAt scope halt n).control = .eval id →
        t.statementOf id = some s → i.tree.node? s = some node → halt node = false) ∧
    ∀ (d : Session) t row s, Tree.parse d.editor.text = .ok t →
      d.editor.breakpointRow? = some row → t.locate (row + 1) = some s →
      ∀ n id, ((d.interpreter t).stateAt (d.programScope t) neverHalt n).control = .eval id →
        t.statementOf id = some s →
        ∃ k < n, ((d.interpreter t).stateAt (d.programScope t) neverHalt k).consulted? = some s ∧
          (∀ j ≤ k, ∀ id',
            ((d.interpreter t).stateAt (d.programScope t) neverHalt j).control = .eval id' →
            t.statementOf id' ≠ some s) ∧
          ∃ least, ∀ fuel ≥ least, ∃ r frames d',
            (d.interpreter (t.tag s)).runProgram fuel (d.programScope (t.tag s))
              (StopPoint.statement s).halts = some r ∧
            r.outcome = .halted .breakpoint frames ∧ frames.top?.map (·.pc) = some s ∧
            d.step fuel = some (d', .ok ⟨.halted, r.output⟩) := by
  refine ⟨fun text options t parsed i row htree scope halt n id s node hc hs hnode => ?_,
    fun d t row s parsed hrow located n id hc hs => ?_⟩
  · have hw : i.tree.WellFormed := htree ▸ (Tree.wellFormed_of_parse parsed).bind row
    have clear := haltsAt_statementOf hw hc (by rw [htree, t.statementOf_bind row, hs])
    rw [Machine.haltsAt, setting, hnode] at clear
    exact clear
  · refine step_stops parsed ?_ hc hs
    simp only [Tree.bind, hrow, Option.bind_some, located]

open Interpreter in
/-- A breakpoint on the second of two rows: the statement of the first row is evaluated, that of
the second is not. -/
theorem breakpoint_not_stepped_over_second_row :
    ∃ (d : Session) (t : Tree) (halt : Node → Bool), d.editor.text = "1;\n2;" ∧
      Tree.parse d.editor.text = .ok t ∧ d.editor.breakpointRow? = some 1 ∧ t.locate 2 = some 3 ∧
      (((d.interpreter t).stateAt (d.programScope t) halt 1).control = .eval 0 ∧
        t.statementOf 0 = some 1 ∧ ∀ node, t.node? 1 = some node → halt node = false) ∧
      ((d.interpreter t).stateAt (d.programScope t) neverHalt 5).control = .eval 2 ∧
      t.statementOf 2 = some 3 ∧
      ∃ fuel r frames d',
        (d.interpreter (t.tag 3)).runProgram fuel (d.programScope (t.tag 3))
          (StopPoint.statement 3).halts = some r ∧
        r.outcome = .halted .breakpoint frames ∧ frames.top?.map (·.pc) = some 3 ∧
        d.step fuel = some (d', .ok ⟨.halted, r.output⟩) := by
  let d : Session := start ((Editor.ofText "1;\n2;").setBreakpoint 1) .standard 10
  let halt : Node → Bool := fun n => n.startLine == some 2
  have parses : (Tree.parse "1;\n2;").toOption.isSome = true := by decide +kernel
  have places : ((Tree.parse "1;\n2;").toOption.bind fun t => t.locate 2) = some 3 := by
    decide +kernel
  have first : ((Tree.parse "1;\n2;").toOption.map fun t =>
      ((d.interpreter t).stateAt (d.programScope t) halt 1).control) = some (.eval 0) := by
    decide +kernel
  have second : ((Tree.parse "1;\n2;").toOption.map fun t =>
      ((d.interpreter t).stateAt (d.programScope t) neverHalt 5).control) = some (.eval 2) := by
    decide +kernel
  have around : ((Tree.parse "1;\n2;").toOption.map fun t => (t.statementOf 0, t.statementOf 2)) =
      some (some 1, some 3) := by decide +kernel
  cases parsed : Tree.parse "1;\n2;" with
  | error e => simp [parsed, Except.toOption] at parses
  | ok t =>
    rw [parsed] at places first second around
    obtain ⟨around₀, around₂⟩ := Prod.mk.inj (Option.some.inj around)
    have first : ((d.interpreter t).stateAt (d.programScope t) halt 1).control = .eval 0 :=
      Option.some.inj first
    have second : ((d.interpreter t).stateAt (d.programScope t) neverHalt 5).control = .eval 2 :=
      Option.some.inj second
    obtain ⟨k, -, -, -, least, stops⟩ :=
      breakpoint_not_stepped_over.2 d t 1 3 parsed rfl places 5 2 second around₂
    obtain ⟨r, frames, d', run⟩ := stops least (Nat.le_refl least)
    refine ⟨d, t, halt, rfl, parsed, rfl, places, ⟨first, around₀, fun node hnode => ?_⟩,
      second, around₂, least, r, frames, d', run⟩
    exact breakpoint_not_stepped_over.1 _ {} t parsed (d.interpreter t) none rfl
      (d.programScope t) halt 1 0 1 node first around₀ hnode

end Session

end ScriptDebugger
