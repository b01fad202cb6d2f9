import ScriptDebugger.Proofs.Machine.Restored
import ScriptDebugger.Proofs.Machine.Sound

/-!
# What a call is doing

While a call goes on, what stands above that which was pending before tells what it is doing:
iterations alone, while built-ins call one another, and then the end of an
activation with what its body has added (`InCall`). So nothing else is ever at
hand at the level of the call, and it ends with a value, or throws or halts.
-/

namespace ScriptDebugger

/-- A call ends so: with a value, or throwing, or halting. -/
def Control.Answers (c : Control) : Prop := (∃ v, c = .value v) ∨ c.frames? ≠ none

lemma Control.Answers.cases {c : Control} (h : c.Answers) :
    (∃ v, c = .value v) ∨ ∃ a, c = .abrupt a := by
  rcases h with value | stops
  · exact .inl value
  · cases c with
    | abrupt a => exact .inr ⟨a, rfl⟩
    | _ => exact absurd rfl stops

lemma Control.Answers.isResult {c : Control} (h : c.Answers) : c.isResult = true := by
  rcases h.cases with ⟨v, rfl⟩ | ⟨a, rfl⟩
  · rfl
  · rfl

namespace Machine

variable {e : Setting} {m m' : Machine} {ps iterations : List Pending}

lemma not_backAt_of_call {f : Value} {args : List Value} {name : CalleeName}
    (call : m.control = .call f args name) : ¬ m.BackAt ps := by
  rintro ⟨ended, -⟩
  rw [call] at ended
  cases ended

/-- What a call that began above `ps` is doing. -/
inductive InCall (ps : List Pending) (m : Machine) : Prop
  /-- It runs the body of a function. -/
  | body (rest iterations : List Pending) (iterate : ∀ p ∈ iterations, p.isIterate = true)
    (pending : m.pending = rest ++ .leave :: (iterations ++ ps))
  /-- A built-in calls its callback. -/
  | asks (iterations : List Pending) (iterate : ∀ p ∈ iterations, p.isIterate = true)
    (pending : m.pending = iterations ++ ps) (nonempty : iterations ≠ [])
    (call : ∃ f args name, m.control = .call f args name)
  /-- It has come back to a built-in, or has ended. -/
  | answers (iterations : List Pending) (iterate : ∀ p ∈ iterations, p.isIterate = true)
    (pending : m.pending = iterations ++ ps) (answer : m.control.Answers)

/-- What a function puts in front of what was pending, if it can be entered, is the end of its
activation and the work of its body. -/
lemma callClosure_cases (m : Machine) (c : Closure) (args : List Value) :
    (∃ rest, (m.callClosure e c args).pending = rest ++ .leave :: m.pending) ∨
      ∃ s f, m.callClosure e c args = throwFault { m with store := s } f := by
  by_cases room : m.calls.depth < m.calls.maxDepth
  · obtain ⟨calls, -, -, started⟩ := callClosure_of_room (e := e) c args room
    obtain ⟨rest, -, added⟩ := ((SameScope.refl (e := e) ⟨enteredStore e m.store c args, calls,
      m.output, m.control, .leave :: m.pending⟩).runBody c.body).pending
    exact .inl ⟨rest, by rw [started, added]⟩
  · obtain ⟨s, -, thrown⟩ := callClosure_of_full (e := e) c args room
    exact .inr ⟨s, .stackExceeded, thrown⟩

section Start

variable (iterate : ∀ p ∈ iterations, p.isIterate = true) (pending : m.pending = iterations ++ ps)
include iterate pending

lemma inCall_give (v : Value) : InCall ps (m.give v) :=
  .answers iterations iterate pending (.inl ⟨v, rfl⟩)

lemma inCall_giveFrom (f : Store → Store × Value) : InCall ps (m.giveFrom f) :=
  .answers iterations iterate pending (.inl ⟨_, rfl⟩)

lemma inCall_throwFault (f : Fault) : InCall ps (m.throwFault f) :=
  .answers iterations iterate pending (.inr nofun)

lemma inCall_callBack (array : Ref) (callback : Value) (index : Nat) (before : List Value)
    {p : Pending} (hp : p.isIterate = true) {ending : Machine → Machine}
    (ended : InCall ps (ending m)) :
    InCall ps (m.callBack array callback index before p ending) := by
  simp only [callBack]
  split
  · refine .asks (p :: iterations) (fun q hq => ?_) ?_ (List.cons_ne_nil _ _) ⟨_, _, _, rfl⟩
    · rcases List.mem_cons.mp hq with rfl | hq
      · exact hp
      · exact iterate q hq
    · exact congrArg (p :: ·) pending
  · exact ended

lemma inCall_forEachFrom (array : Ref) (callback : Value) (index : Nat) :
    InCall ps (m.forEachFrom array callback index) :=
  inCall_callBack iterate pending array callback index [] rfl (inCall_give iterate pending _)

lemma inCall_mapFrom (array : Ref) (callback : Value) (index : Nat) (done : List Value) :
    InCall ps (m.mapFrom array callback index done) :=
  inCall_callBack iterate pending array callback index [] rfl (inCall_giveFrom iterate pending _)

lemma inCall_reduceFrom (array : Ref) (callback : Value) (index : Nat) (acc : Value) :
    InCall ps (m.reduceFrom array callback index acc) :=
  inCall_callBack iterate pending array callback index [acc] rfl (inCall_give iterate pending _)

lemma inCall_iterate (method : ArrayMethod) (array : Ref) (args : List Value) :
    InCall ps (m.iterate method array args) := by
  cases method with
  | forEach => exact inCall_forEachFrom iterate pending array _ 0
  | map => exact inCall_mapFrom iterate pending array _ 0 []
  | reduce =>
    simp only [Machine.iterate]
    split
    · exact inCall_reduceFrom iterate pending array _ 0 _
    · split
      · exact inCall_reduceFrom iterate pending array _ 1 _
      · exact inCall_throwFault iterate pending _
  | _ => exact inCall_give iterate pending _

lemma inCall_callBuiltin (b : BoundBuiltin) (args : List Value) :
    InCall ps (m.callBuiltin b args) := by
  obtain ⟨builtin, receiver⟩ := b
  cases builtin with
  | log =>
    have printed : (m.print (String.intercalate " " (args.map m.store.inspect))).pending =
        iterations ++ ps := pending
    exact inCall_give iterate printed _
  | construct kind =>
    simp only [callBuiltin]
    exact inCall_giveFrom iterate pending _
  | array method =>
    simp only [callBuiltin]
    split
    · split
      · exact inCall_iterate iterate pending _ _ _
      · exact inCall_giveFrom iterate pending _
    · exact inCall_throwFault iterate pending _
  | string method =>
    simp only [callBuiltin]
    split
    · exact inCall_give iterate pending _
    · exact inCall_throwFault iterate pending _
  | _ => exact inCall_give iterate pending _

lemma inCall_callClosure (c : Closure) (args : List Value) :
    InCall ps (m.callClosure e c args) := by
  rcases m.callClosure_cases (e := e) c args with ⟨rest, added⟩ | ⟨s, f, thrown⟩
  · exact .body rest iterations iterate (by rw [added, pending])
  · rw [thrown]
    exact inCall_throwFault (m := { m with store := s }) iterate pending f

/-- Whatever is called, at once or from built-ins that have been called. -/
lemma inCall_call (f : Value) (args : List Value) (name : CalleeName) :
    InCall ps (m.call e f args name) := by
  cases f with
  | function ref => exact inCall_callClosure iterate pending _ args
  | builtin ref => exact inCall_callBuiltin iterate pending _ args
  | _ => exact inCall_throwFault iterate pending _

end Start

/-- A step takes off the entry that it resumes, and adds others. -/
lemma pending_step (m : Machine) : ∃ added, (m.step e).pending = added ++ m.poised.pending := by
  cases hf : m.isFinal with
  | true =>
    have empty : m.pending = [] := (isFinal_iff_backAt.mp hf).2
    refine ⟨[], ?_⟩
    rw [step_of_isFinal hf, poised, empty, List.drop_nil, List.append_nil]
  | false =>
    cases step_cases (e := e) hf with
    | within called resumed scope =>
      obtain ⟨added, -, pending⟩ := scope.sameActivation.pending
      exact ⟨added, pending⟩
    | call c args m' called scope quiet resumed step =>
      obtain ⟨added, -, pending⟩ := scope.sameActivation.pending
      rw [step]
      rcases m'.callClosure_cases (e := e) c args with ⟨rest, entered⟩ | ⟨s, f, thrown⟩
      · exact ⟨rest ++ .leave :: added, by rw [entered, pending, List.append_assoc]; rfl⟩
      · exact ⟨added, by rw [thrown]; exact pending⟩
    | leave called control ended resumed stop step =>
      exact ⟨[], by rw [step]; rfl⟩

/-- The body of a function goes on until its activation ends; and then the call answers. -/
lemma inCall_step_of_body {rest : List Pending} (iterate : ∀ p ∈ iterations, p.isIterate = true)
    (pending : m.pending = rest ++ .leave :: (iterations ++ ps)) : InCall ps (m.step e) := by
  obtain ⟨added, step⟩ := pending_step (e := e) m
  cases resumed : m.resumed? with
  | none =>
    rw [poised_of_none resumed, pending, ← List.append_assoc] at step
    exact .body (added ++ rest) iterations iterate step
  | some p =>
    have split := pending_of_resumed resumed
    rw [pending] at split
    cases rest with
    | nil =>
      obtain ⟨rfl, left⟩ := List.cons.inj split
      obtain ⟨control, step, answer⟩ := step_of_leave (e := e) resumed
      rw [step]
      refine .answers iterations iterate left.symm ?_
      rcases answer with value | ⟨rfl, stops⟩
      · exact .inl value
      · exact .inr stops
    | cons q rest =>
      rw [List.cons_append] at split
      obtain ⟨-, left⟩ := List.cons.inj split
      rw [← left, ← List.append_assoc] at step
      exact .body (added ++ rest) iterations iterate step

/-- An iteration does nothing about what stops its callback. -/
lemma step_of_abrupt_iterate {p : Pending} (iterates : p.isIterate = true) {store : Store}
    {calls : CallStack} {output : String} {a : Abrupt} :
    Machine.step e ⟨store, calls, output, .abrupt a, p :: ps⟩ =
      ⟨store, calls, output, .abrupt a, ps⟩ := by
  cases p <;> first | rfl | cases iterates

/-- A built-in that gets an answer asks again or answers, and whatever stops it passes. -/
lemma inCall_step_of_answers {p : Pending} (iterates : p.isIterate = true)
    (iterate : ∀ p ∈ iterations, p.isIterate = true)
    (pending : m.pending = p :: (iterations ++ ps)) (answer : m.control.Answers) :
    InCall ps (m.step e) := by
  obtain ⟨store, calls, output, control, waiting⟩ := m
  obtain rfl : waiting = p :: (iterations ++ ps) := pending
  have poised : (⟨store, calls, output, .done, iterations ++ ps⟩ : Machine).pending =
      iterations ++ ps := rfl
  cases control with
  | value v =>
    cases p with
    | forEach array callback index => exact inCall_forEachFrom iterate poised array callback _
    | map array callback index done => exact inCall_mapFrom iterate poised array callback _ _
    | reduce array callback index => exact inCall_reduceFrom iterate poised array callback _ v
    | _ => cases iterates
  | abrupt a =>
    rw [step_of_abrupt_iterate iterates]
    exact .answers iterations iterate rfl answer
  | _ =>
    rcases answer with ⟨v, same⟩ | stops
    · cases same
    · exact absurd rfl stops

lemma inCall_step_of_call (iterate : ∀ p ∈ iterations, p.isIterate = true)
    (pending : m.pending = iterations ++ ps) {f : Value} {args : List Value} {name : CalleeName}
    (call : m.control = .call f args name) : InCall ps (m.step e) := by
  obtain ⟨store, calls, output, control, waiting⟩ := m
  obtain rfl := call
  exact inCall_call (m := ⟨store, calls, output, .done, waiting⟩) iterate pending f args name

lemma InCall.step (h : InCall ps m) (busy : ¬ m.BackAt ps) : InCall ps (m.step e) := by
  cases h with
  | body rest iterations iterate pending => exact inCall_step_of_body iterate pending
  | asks iterations iterate pending nonempty call =>
    obtain ⟨f, args, name, call⟩ := call
    exact inCall_step_of_call iterate pending call
  | answers iterations iterate pending answer =>
    cases iterations with
    | nil => exact absurd ⟨answer.isResult, pending⟩ busy
    | cons p iterations =>
      obtain ⟨iterates, iterate⟩ := List.forall_mem_cons.mp iterate
      exact inCall_step_of_answers iterates iterate pending answer

/-- From its first step on, and until it ends, a call is doing one of these. -/
lemma inCall_steps {f : Value} {args : List Value} {name : CalleeName}
    (call : m.control = .call f args name) {n : Nat}
    (first : ∀ k ≤ n, ¬ (m.steps e k).BackAt m.pending) : InCall m.pending (m.steps e (n + 1)) := by
  induction n with
  | zero =>
    exact inCall_step_of_call (List.forall_mem_nil _) (List.nil_append _).symm call
  | succ n ih =>
    rw [steps_succ]
    exact (ih fun k hk => first k (Nat.le_succ_of_le hk)).step (first (n + 1) (Nat.le_refl _))

/-- A call either has something of its own before what was pending, or has ended. -/
lemma InCall.above_or_ended (h : InCall ps m) :
    ps.length < m.pending.length ∨ m.pending = ps ∧ m.control.Answers := by
  cases h with
  | body rest iterations iterate pending =>
    refine .inl ?_
    rw [pending, List.length_append, List.length_cons, List.length_append]
    omega
  | asks iterations iterate pending nonempty call =>
    have pos := List.length_pos_iff.mpr nonempty
    refine .inl ?_
    rw [pending, List.length_append]
    omega
  | answers iterations iterate pending answer =>
    cases iterations with
    | nil => exact .inr ⟨pending, answer⟩
    | cons p iterations =>
      refine .inl ?_
      rw [pending, List.length_append, List.length_cons]
      omega

end Machine

end ScriptDebugger
