import ScriptDebugger.Proofs.Machine.Balance

/-!
# What evaluation leaves of the call stack

However the work at hand ends, the call stack is then as it was before, but for
the program counter of the innermost activation: while the work goes on, passing
all entries that it has added would lead back there (`Unwinds`), and every step
keeps that. So a run that has ended has left every activation that it entered.
-/

namespace ScriptDebugger

/-- Whether work has ended. -/
def Control.isResult : Control → Bool
  | .value _ | .done | .abrupt _ => true
  | .eval _ | .exec _ | .call .. => false

namespace Machine

variable {e : Setting} {m m' : Machine} {ps : List Pending} {as : List Activation}

/-- Passing the entries above `ps` leaves the activations `as`, but for a program counter. -/
def Unwinds (ps : List Pending) (as : List Activation) (m : Machine) : Prop :=
  ∃ qs, m.pending = qs ++ ps ∧ SameButPc (unwind qs m.calls.toList) as

/-- What was at hand above `ps` has ended. -/
def BackAt (ps : List Pending) (m : Machine) : Prop := m.control.isResult = true ∧ m.pending = ps

/-- The work at hand ends after `n` steps. -/
structure EndsAfter (e : Setting) (m : Machine) (n : Nat) : Prop where
  back : (m.steps e n).BackAt m.pending
  first : ∀ k < n, ¬ (m.steps e k).BackAt m.pending

lemma unwinds_self (m : Machine) : m.Unwinds m.pending m.calls.toList := ⟨[], rfl, .refl _⟩

lemma Unwinds.backAt (h : m.Unwinds ps as) (back : m.BackAt ps) :
    SameButPc m.calls.toList as := by
  obtain ⟨qs, hp, hu⟩ := h
  rw [back.2, List.self_eq_append_left] at hp
  subst hp
  exact hu

lemma Unwinds.of_sameScope (h : m.Unwinds ps as) (same : SameScope e m m') : m'.Unwinds ps as := by
  obtain ⟨qs, hp, hu⟩ := h
  obtain ⟨rs, hr, hu'⟩ := same.unwound
  refine ⟨rs ++ qs, by rw [hr, hp, List.append_assoc], ?_⟩
  rw [unwind_append]
  exact (hu'.unwind qs).trans hu

lemma Unwinds.callClosure (h : m.Unwinds ps as) (c : Closure) (args : List Value) :
    (m.callClosure e c args).Unwinds ps as := by
  by_cases room : m.calls.depth < m.calls.maxDepth
  · obtain ⟨calls, hcalls, -, hbody⟩ := callClosure_of_room (e := e) c args room
    obtain ⟨qs, hp, hu⟩ := h
    rw [hbody]
    have entered : Unwinds ps as ⟨enteredStore e m.store c args, calls, m.output, m.control,
        .leave :: m.pending⟩ := by
      refine ⟨.leave :: qs, by rw [hp]; rfl, ?_⟩
      rw [unwind, hcalls]
      exact hu
    exact entered.of_sameScope ((SameScope.refl (e := e) _).runBody c.body)
  · obtain ⟨s, -, hthrow⟩ := callClosure_of_full (e := e) c args room
    rw [hthrow]
    have grown : Unwinds ps as { m with store := s } := h
    exact grown.of_sameScope ((SameScope.refl (e := e) _).throwFault _)

lemma isFinal_iff_backAt : m.isFinal = true ↔ m.BackAt [] := by
  obtain ⟨store, calls, output, control, pending⟩ := m
  constructor
  · intro h
    cases pending with
    | nil => cases control <;> first | exact ⟨rfl, rfl⟩ | cases h
    | cons p ps => cases h
  · rintro ⟨hc, hp⟩
    have hp : pending = [] := hp
    subst hp
    cases control <;> first | rfl | cases hc

/-- The entry that the next step resumes is the innermost of those above `ps`. -/
lemma Unwinds.resumed (h : m.Unwinds ps as) (busy : ¬ m.BackAt ps) {p : Pending}
    (hp : m.resumed? = some p) :
    ∃ qs, m.poised.pending = qs ++ ps ∧ SameButPc (unwind (p :: qs) m.calls.toList) as := by
  obtain ⟨qs, hq, hu⟩ := h
  have split := pending_of_resumed hp
  have result : m.control.isResult = true := by
    cases hc : m.control <;> simp [resumed?, hc] at hp <;> rfl
  cases qs with
  | nil => exact absurd ⟨result, hq⟩ busy
  | cons q qs =>
    rw [split] at hq
    obtain ⟨rfl, rest⟩ := List.cons.inj hq
    exact ⟨qs, rest, hu⟩

lemma Unwinds.passed (h : m.Unwinds ps as) (busy : ¬ m.BackAt ps)
    (resumed : ∀ p, m.resumed? = some p → p.isLeave = false) : m.passed.Unwinds ps as := by
  cases hr : m.resumed? with
  | none =>
    have same : m.passed = m := by
      simp [Machine.passed, Machine.poised, hr]
    rwa [same]
  | some p =>
    obtain ⟨qs, hq, hu⟩ := h.resumed busy hr
    have inner := resumed p hr
    cases p with
    | leave => cases inner
    | restoreScope outer =>
      have moved : m.passed = m.poised.setScope outer := by simp only [Machine.passed, hr]
      refine ⟨qs, moved ▸ hq, ?_⟩
      rw [moved, Machine.setScope, CallStack.setScope, CallStack.toList_modifyTop]
      exact hu
    | _ =>
      have same : m.passed = m.poised := by simp only [Machine.passed, hr]
      exact ⟨qs, same ▸ hq, same ▸ hu⟩

lemma Unwinds.step (h : m.Unwinds ps as) (busy : ¬ m.BackAt ps) : (m.step e).Unwinds ps as := by
  cases hf : m.isFinal with
  | true => rwa [step_of_isFinal hf]
  | false =>
    cases step_cases (e := e) hf with
    | within called resumed scope => exact (h.passed busy resumed).of_sameScope scope
    | call c args m' called scope quiet resumed step =>
      rw [step]
      exact ((h.passed busy resumed).of_sameScope scope).callClosure c args
    | leave called control ended resumed stop step =>
      obtain ⟨qs, hq, hu⟩ := h.resumed busy resumed
      rw [step]
      refine ⟨qs, hq, ?_⟩
      rw [CallStack.toList_pop]
      exact hu

lemma unwinds_steps {n : Nat} (first : ∀ k < n, ¬ (m.steps e k).BackAt m.pending) :
    (m.steps e n).Unwinds m.pending m.calls.toList := by
  induction n with
  | zero => exact m.unwinds_self
  | succ n ih =>
    rw [steps_succ]
    exact (ih fun k hk => first k (Nat.lt_succ_of_lt hk)).step (first n (Nat.lt_succ_self n))

/-- When the work at hand has ended, however it ended, the activations are those before. -/
lemma EndsAfter.sameButPc {n : Nat} (h : m.EndsAfter e n) :
    SameButPc (m.steps e n).calls.toList m.calls.toList :=
  (unwinds_steps h.first).backAt h.back

/-- The number of pending entries tells whether the work has ended. -/
lemma EndsAfter.of_length {n : Nat} (result : (m.steps e n).control.isResult = true)
    (length : (m.steps e n).pending.length = m.pending.length)
    (first : ∀ k < n, (m.steps e k).control.isResult = true →
      (m.steps e k).pending.length ≠ m.pending.length) : m.EndsAfter e n := by
  have before : ∀ k < n, ¬ (m.steps e k).BackAt m.pending := by
    rintro k hk ⟨ended, pending⟩
    exact first k hk ended (congrArg List.length pending)
  obtain ⟨qs, hq, -⟩ := unwinds_steps before
  have none : qs = [] := by
    refine List.eq_nil_of_length_eq_zero ?_
    rw [hq, List.length_append] at length
    omega
  refine ⟨⟨result, ?_⟩, before⟩
  rw [hq, none, List.nil_append]

lemma Unwinds.steps (h : m.Unwinds [] as) (n : Nat) : (m.steps e n).Unwinds [] as := by
  refine steps_preserve (fun m h => ?_) h n
  by_cases busy : m.BackAt []
  · rwa [step_of_isFinal (isFinal_iff_backAt.mpr busy)]
  · exact h.step busy

/-- At the end of a run, everything that was pending has been passed. -/
lemma Unwinds.run (h : m.Unwinds [] as) {fuel : Nat} (hrun : m.run e fuel = some m') :
    SameButPc m'.calls.toList as := by
  obtain ⟨hf, n, -, rfl⟩ := run_eq_some_iff.mp hrun
  exact (h.steps n).backAt (isFinal_iff_backAt.mp hf)

lemma unwind_nil (ps : List Pending) : unwind ps [] = [] := by
  induction ps with
  | nil => rfl
  | cons p ps ih => cases p <;> exact ih

/-- Work that will come back to an activation has one. -/
lemma Unwinds.running (h : m.Unwinds ps as) (nonempty : as ≠ []) : m.calls.toList ≠ [] := by
  obtain ⟨qs, -, hu⟩ := h
  intro hc
  rw [hc, unwind_nil] at hu
  exact nonempty (SameButPc.nil_iff.mp hu.symm)

end Machine

open Machine

lemma Interpreter.unwinds_startProgram (i : Interpreter) (scope : ScopeId) (halt : Node → Bool) :
    (i.startProgram scope halt).Unwinds [] [] := by
  by_cases room : 0 < i.maxDepth
  · obtain ⟨calls, hcalls, -, hstart⟩ := i.startProgram_of_room scope halt room
    have entered : Unwinds [] [] ⟨i.store.hoist (i.setting halt) scope i.body, calls, "", .done,
        [.leave]⟩ := by
      refine ⟨[.leave], rfl, ?_⟩
      rw [unwind, hcalls]
      exact .refl []
    rw [hstart]
    exact entered.of_sameScope ((SameScope.refl (e := i.setting halt) _).runStatements i.body)
  · rw [i.startProgram_of_full scope halt room]
    exact ⟨[], rfl, .refl []⟩

/-- The run of a function ends in its own activation, if it got one. -/
lemma Callable.unwinds_start (c : Callable) :
    ∃ as, (as.length ≤ 1 ∧ (c.start.isFinal = false → as ≠ [])) ∧ c.start.Unwinds [] as := by
  let idle : Machine := { c.interpreter.idle with output := c.output }
  let next := Machine.runBody c.setting c.closure.body
  by_cases room : idle.calls.depth < idle.calls.maxDepth
  · obtain ⟨calls, hcalls, -, hstart⟩ :=
      enterFunction_of_room (e := c.setting) c.closure [] next room
    have entered : Unwinds [] calls.toList
        ⟨enteredStore c.setting idle.store c.closure [], calls, idle.output, .done, []⟩ :=
      ⟨[], rfl, .refl _⟩
    refine ⟨calls.toList, ⟨by rw [hcalls]; exact Nat.le_refl 1, fun _ => ?_⟩, ?_⟩
    · rw [hcalls]
      exact List.cons_ne_nil _ _
    rw [Callable.start, hstart]
    exact entered.of_sameScope ((SameScope.refl (e := c.setting) _).runBody c.closure.body)
  · have full : c.start = _ := enterFunction_of_full (e := c.setting) c.closure [] next room
    rw [full]
    exact ⟨[], ⟨Nat.zero_le 1, nofun⟩, [], rfl, .refl []⟩

/-- However the evaluation of a node ends, the call stack is as deep as before, the activations
below the innermost one are those before, and the innermost one differs in its program counter at
most. A run of a program, or of a function on its own, leaves no activation. -/
theorem Machine.calls_restored :
    (∀ (e : Setting) (m : Machine) (a : Activation) (rest : List Activation) (n : Nat),
      m.calls.toList = a :: rest → m.EndsAfter e n →
        (m.steps e n).calls.depth = m.calls.depth ∧
        ∃ pc, (m.steps e n).calls.toList = { a with pc } :: rest) ∧
    (∀ (i : Interpreter) (fuel : Nat) (scope : ScopeId) (halt : Node → Bool) (m : Machine),
      (i.startProgram scope halt).run (i.setting halt) fuel = some m → m.calls.toList = []) ∧
    ∀ (c : Callable) (fuel : Nat) (m : Machine) (frames : FrameChain),
      c.call fuel = some (m, frames) → m.calls.toList = [] := by
  refine ⟨fun e m a rest n top ends => ?_, fun i fuel scope halt m hrun => ?_,
    fun c fuel m frames hcall => ?_⟩
  · obtain ⟨pc, hpc⟩ := SameButPc.cons_iff.mp (top ▸ ends.sameButPc)
    refine ⟨?_, pc, hpc⟩
    rw [← CallStack.length_toList, ← CallStack.length_toList, hpc, top, List.length_cons,
      List.length_cons]
  · exact SameButPc.nil_iff.mp ((i.unwinds_startProgram scope halt).run hrun)
  · obtain ⟨as, ⟨short, -⟩, unwinds⟩ := c.unwinds_start
    obtain ⟨last, hrun, hlast⟩ := Option.map_eq_some_iff.mp hcall
    have same := unwinds.run hrun
    have left : m.calls.toList = as.tail := by
      rw [← (Prod.mk.inj hlast).1, leave, CallStack.toList_pop]
      exact same.tail
    rw [left]
    exact List.eq_nil_of_length_eq_zero (by rw [List.length_tail]; omega)

/-- A value thrown in a block with a scope of its own leaves the program's activation in the
program's scope, and the run then leaves no activation. Nor does a function that throws. -/
theorem Machine.calls_restored_throw_in_block :
    ∃ (i : Interpreter) (e : Setting) (m last : Machine) (c : Callable) (r : Machine × FrameChain),
      Tree.parse "\x7b let x = 1; throw x; \x7d" = .ok i.tree ∧
      e = i.setting (fun _ => false) ∧ m = i.startProgram globalScope (fun _ => false) ∧
      m.calls.toList = [⟨7, globalScope, none⟩] ∧ (m.steps e 1).calls.toList = [⟨6, 1, none⟩] ∧
      m.EndsAfter e 10 ∧ (∃ pc, (m.steps e 10).calls.toList = [⟨pc, globalScope, none⟩]) ∧
      m.run e 20 = some last ∧ last.calls.toList = [] ∧
      Interpreter.callableOfText 20 1 "(function () \x7b throw 1; \x7d)" = some (.ok c) ∧
      c.call 20 = some r ∧ r.1.calls.toList = [] := by
  let source := "\x7b let x = 1; throw x; \x7d"
  let i := Interpreter.ofTree ((Tree.parse source).toOption.getD default) source false 10
  let e := i.setting fun _ => false
  let m := i.startProgram globalScope fun _ => false
  have parses : (Tree.parse source).toOption.isSome = true := by decide +kernel
  have called : (Interpreter.callableOfText 20 1 "(function () \x7b throw 1; \x7d)").any
      (fun c => c.toOption.any fun c => (c.call 20).isSome) = true := by decide +kernel
  have ended : (m.run e 20).isSome = true := by decide +kernel
  have top : m.calls.toList = [⟨7, globalScope, none⟩] := by decide +kernel
  have inner : (m.steps e 1).calls.toList = [⟨6, 1, none⟩] := by decide +kernel
  have ends : m.EndsAfter e 10 :=
    .of_length (by decide +kernel) (by decide +kernel) (by decide +kernel)
  obtain ⟨last, hlast⟩ := Option.isSome_iff_exists.mp ended
  cases parsed : Tree.parse source with
  | error err => simp [parsed, Except.toOption] at parses
  | ok t =>
    cases callable : Interpreter.callableOfText 20 1 "(function () \x7b throw 1; \x7d)" with
    | none => simp [callable] at called
    | some r =>
      cases r with
      | error err => simp [callable, Except.toOption] at called
      | ok c =>
        rw [callable] at called
        obtain ⟨r, hr⟩ := Option.isSome_iff_exists.mp (show (c.call 20).isSome = true from called)
        have ok : i.tree = t := by
          simp [i, Interpreter.ofTree, parsed, Except.toOption]
        refine ⟨i, e, m, last, c, r, congrArg Except.ok ok.symm, rfl, rfl, top, inner, ends,
          (calls_restored.1 e m _ [] 10 top ends).2, hlast,
          calls_restored.2.1 i 20 globalScope _ last hlast, rfl, hr,
          calls_restored.2.2 c 20 r.1 r.2 hr⟩

end ScriptDebugger
