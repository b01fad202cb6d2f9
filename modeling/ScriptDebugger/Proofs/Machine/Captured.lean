import ScriptDebugger.Proofs.Machine.Reached

/-!
# The frames of a stop

The frames that come with an exception or a halt are the call stack of one state
of the run. They are as many as the functions that were being executed then, the
program among them; each names a node of its function, and each but the innermost
one stands at a call.
-/

namespace ScriptDebugger

namespace CallStack

lemma map_framesFrom {α : Type} (f : Frame → α) (g : Activation → α)
    (same : ∀ a parent, f ⟨a.pc, a.scope, a.name, parent⟩ = g a) (place : Nat)
    (as : List Activation) : (framesFrom place as).map f = as.map g := by
  induction as generalizing place with
  | nil => rfl
  | cons a rest ih => rw [framesFrom, List.map_cons, List.map_cons, ih, same]

lemma map_pc_capture (c : CallStack) : c.capture.frames.map (·.pc) = c.toList.map (·.pc) :=
  map_framesFrom _ _ (fun _ _ => rfl) 0 c.toList

lemma map_name_capture (c : CallStack) : c.capture.frames.map (·.name) = c.toList.map (·.name) :=
  map_framesFrom _ _ (fun _ _ => rfl) 0 c.toList

end CallStack

namespace Machine

variable {e : Setting} {m : Machine}

/-- The functions that are being executed after `n` steps of a program, innermost first; the
program itself is `none`. -/
def running (e : Setting) (m : Machine) : (n : Nat) → List (Option Closure)
  | 0 => [none]
  | n + 1 => (m.steps e n).keptAlong some (running e m n)

/-- The activations of the functions `xs`, as to their names. -/
def Named (xs : List (Option Closure)) (m : Machine) : Prop :=
  m.calls.toList.map (·.name) = xs.map fun x => x.bind (·.name)

lemma Named.of_same {m' : Machine} {xs : List (Option Closure)} (h : Named xs m)
    (same : SameActivation e m m') : Named xs m' := by
  obtain ⟨f, hf, hc⟩ := same.calls
  rw [Named, hc, ← h]
  cases m.calls.toList with
  | nil => rfl
  | cons a as => rw [List.modifyHead_cons, List.map_cons, List.map_cons, hf]

lemma keptAlong_of_isFinal {α : Type} (hf : m.isFinal = true) (f : Closure → α) (xs : List α) :
    m.keptAlong f xs = xs := by
  obtain ⟨store, calls, output, control, pending⟩ := m
  cases pending with
  | nil => cases control <;> first | rfl | simp [isFinal] at hf
  | cons p ps => simp [isFinal] at hf

lemma Named.step (e : Setting) {xs : List (Option Closure)} (h : Named xs m) :
    Named (m.keptAlong some xs) (m.step e) := by
  cases hf : m.isFinal with
  | true => rwa [keptAlong_of_isFinal hf, step_of_isFinal hf]
  | false =>
  cases step_cases (e := e) hf with
  | within called resumed scope =>
    rw [keptAlong_within _ _ called resumed]
    exact Named.of_same (m := m.poised) h scope.sameActivation
  | call c args m' called scope quiet resumed step =>
    have same := scope.sameActivation
    have named : Named xs m' := Named.of_same (m := m.poised) h same
    have depth : m'.calls.depth = m.calls.depth := same.depth_eq
    have maxDepth : m'.calls.maxDepth = m.calls.maxDepth := same.maxDepth
    simp only [keptAlong, called]
    rw [step]
    by_cases room : m'.calls.depth < m'.calls.maxDepth
    · obtain ⟨calls, hcalls, -, hbody⟩ := callClosure_of_room (e := e) c args room
      rw [depth, maxDepth] at room
      rw [hbody, if_pos room]
      refine Named.of_same ?_ ((SameScope.refl _).runBody c.body).toSameActivation
      simp only [Named, hcalls, List.map_cons]
      rw [named]
      rfl
    · obtain ⟨s, hs, hthrow⟩ := callClosure_of_full (e := e) c args room
      rw [depth, maxDepth] at room
      rw [hthrow, if_neg room]
      exact (named.of_same (.withStore (e := e) m' hs)).of_same
        ((SameScope.refl (e := e) _).throwFault _).toSameActivation
  | leave called control ended resumed stop step =>
    simp only [keptAlong, called, resumed, Option.any_some, Pending.isLeave, if_true]
    rw [step]
    simp only [Named, CallStack.toList_pop, List.map_tail]
    rw [h]

/-- Functions that were called from the program, one by another, or nothing any more. -/
def FromProgram (xs : List (Option Closure)) : Prop :=
  xs = [] ∨ ∃ cs : List Closure, xs = cs.map some ++ [none]

lemma FromProgram.keptAlong {xs : List (Option Closure)} (h : FromProgram xs)
    (nonempty : m.called? ≠ none → xs ≠ []) : FromProgram (m.keptAlong some xs) := by
  simp only [Machine.keptAlong]
  cases hc : m.called? with
  | some c =>
    obtain ⟨cs, rfl⟩ := h.resolve_left (nonempty (by simp [hc]))
    dsimp only
    split
    · exact .inr ⟨c :: cs, rfl⟩
    · exact .inr ⟨cs, rfl⟩
  | none =>
    dsimp only
    split
    · rcases h with rfl | ⟨cs, rfl⟩
      · exact .inl rfl
      · cases cs with
        | nil => exact .inl rfl
        | cons c cs => exact .inr ⟨cs, rfl⟩
    · exact h

lemma isFinal_of_called {c : Closure} (hc : m.called? = some c) : m.isFinal = false := by
  obtain ⟨store, calls, output, control, pending⟩ := m
  cases pending with
  | nil => cases control <;> first | rfl | simp [called?] at hc
  | cons p ps => rfl

end Machine

/-- The node of what is executed. -/
def Interpreter.executed (i : Interpreter) (x : Option Closure) : NodeId :=
  x.elim i.root fun c => i.tree.owner c.body

/-- What the frames of a chain say: each names the function that it executes (`xs`) and a node of
that function, each but the innermost one a call, and the last one the program. -/
structure FrameChain.Records (i : Interpreter) (xs : List (Option Closure)) (c : FrameChain) :
    Prop where
  valid : c.validate = .ok ()
  walk : ∀ limit, c.length ≤ limit → c.walk limit = c.frames
  pos : 1 ≤ c.length
  depth : c.length ≤ i.maxDepth
  program : ∃ cs : List Closure, xs = cs.map some ++ [none]
  names : c.frames.map (·.name) = xs.map fun x => x.bind (·.name)
  nodes : ∀ f ∈ c.frames, f.pc < i.tree.size
  executes : c.frames.map (fun f => i.tree.owner f.pc) = xs.map i.executed
  callers : ∀ f ∈ c.frames.tail, (i.tree.kind f.pc).isCall = true

namespace Interpreter

open Machine

variable (i : Interpreter) (scope : ScopeId) (halt : Node → Bool)

/-- The functions that are being executed after `n` steps of the program. -/
def runningAt (n : Nat) : List (Option Closure) :=
  running (i.setting halt) (i.startProgram scope halt) n

/-- The abrupt ends that have been captured in the first `n` steps. -/
def Seen (n : Nat) (a : Abrupt) : Prop :=
  ∃ k ≤ n, (i.stateAt scope halt k).control = .abrupt a ∧
    CapturedAt (i.setting halt) (i.stateAt scope halt k).calls a

/-- What holds of every state of the run of a program. -/
structure Invariant (n : Nat) : Prop where
  sound : Sound (i.setting halt) (i.Seen scope halt n)
    ((i.runningAt scope halt n).map i.executed) (i.stateAt scope halt n)
  named : Named (i.runningAt scope halt n) (i.stateAt scope halt n)
  program : FromProgram (i.runningAt scope halt n)
  balanced : Balanced (i.stateAt scope halt n)

variable {i}

lemma named_start (room : 0 < i.maxDepth) : Named [none] (i.stateAt scope halt 0) := by
  obtain ⟨calls, hcalls, -, hstart⟩ := i.startProgram_of_room scope halt room
  rw [stateAt, hstart]
  refine Named.of_same (e := i.setting halt) ?_
    ((SameScope.refl _).runStatements _).toSameActivation
  simp only [Named, hcalls]
  rfl

theorem invariant (hw : i.tree.WellFormed) (room : 0 < i.maxDepth) (n : Nat) :
    i.Invariant scope halt n := by
  induction n with
  | zero =>
    exact ⟨sound_start scope halt hw room _, named_start scope halt room, .inr ⟨[], rfl⟩,
      i.balanced_startProgram scope halt⟩
  | succ n ih =>
    have running : i.runningAt scope halt (n + 1) =
      (i.stateAt scope halt n).keptAlong some (i.runningAt scope halt n) := rfl
    refine ⟨?_, ?_, ?_, ?_⟩
    · rw [running, map_keptAlong, stateAt_succ]
      refine ih.sound.step hw fun a ha known => ?_
      rcases known with ⟨k, hk, captured⟩ | captured
      · exact ⟨k, by omega, captured⟩
      · exact ⟨n, by omega, ha, captured⟩
    · rw [running, stateAt_succ]
      exact ih.named.step _
    · rw [running]
      refine ih.program.keptAlong fun hc hnil => ?_
      obtain ⟨c, hc⟩ := Option.ne_none_iff_exists'.mp hc
      obtain ⟨a, as, htop⟩ := ih.balanced.exists_top (isFinal_of_called hc)
      have named := ih.named
      rw [Named, htop, hnil] at named
      cases named
    · rw [stateAt_succ]
      exact ih.balanced.step

lemma maxDepth_stateAt (room : 0 < i.maxDepth) (n : Nat) :
    (i.stateAt scope halt n).calls.maxDepth = i.maxDepth := by
  obtain ⟨calls, -, hmax, hstart⟩ := i.startProgram_of_room scope halt room
  have started : (i.startProgram scope halt).calls.maxDepth = i.maxDepth := by
    rw [hstart]
    exact ((SameScope.refl (e := i.setting halt) _).runStatements _).maxDepth.trans hmax
  exact (follows_steps _ n).maxDepth.trans started

variable {scope halt}

lemma Invariant.records {n : Nat} (h : i.Invariant scope halt n) (room : 0 < i.maxDepth)
    (hw : i.tree.WellFormed) {a : Activation} {as : List Activation}
    (htop : (i.stateAt scope halt n).calls.toList = a :: as) (inside : a.pc < i.tree.size) :
    (i.stateAt scope halt n).calls.capture.Records i (i.runningAt scope halt n) := by
  set calls := (i.stateAt scope halt n).calls with hcalls
  have length : calls.capture.length = calls.depth := CallStack.length_capture calls
  have pos : 1 ≤ calls.capture.length := by
    rw [length, ← CallStack.length_toList, htop, List.length_cons]
    omega
  have callers : ∀ f ∈ calls.capture.frames.tail, (i.tree.kind f.pc).isCall = true := by
    intro f hf
    have mem : f.pc ∈ calls.toList.tail.map (·.pc) := by
      rw [List.map_tail, ← CallStack.map_pc_capture, ← List.map_tail]
      exact List.mem_map_of_mem hf
    obtain ⟨b, hb, hpc⟩ := List.mem_map.mp mem
    rw [← hpc]
    exact h.sound.callers b hb
  refine ⟨calls.capture_chained.validate pos, fun limit hl => calls.capture_chained.walk hl, pos,
    ?_, ?_, ?_, ?_, ?_, callers⟩
  · rw [length, ← maxDepth_stateAt scope halt room n]
    exact h.sound.depth
  · refine h.program.resolve_left fun hnil => ?_
    have named := h.named
    rw [Named, ← hcalls, htop, hnil] at named
    cases named
  · rw [CallStack.map_name_capture]
    exact h.named
  · intro f hf
    cases hframes : calls.capture.frames with
    | nil =>
      rw [hframes] at hf
      cases hf
    | cons g gs =>
      rw [hframes] at hf callers
      rcases List.mem_cons.mp hf with rfl | hf
      · have pcs := CallStack.map_pc_capture calls
        rw [hframes, htop, List.map_cons, List.map_cons] at pcs
        rw [(List.cons.inj pcs).1]
        exact inside
      · exact Nat.lt_of_succ_lt (inside_of_isCall (e := i.setting halt) hw (callers f hf))
  · have owners : calls.toList.map (fun a => i.tree.owner a.pc) =
        (i.runningAt scope halt n).map i.executed := by
      have owners := h.sound.owners
      rw [← List.forall₂_eq_eq_eq, List.forall₂_map_left_iff]
      exact owners
    rw [← owners]
    exact CallStack.map_framesFrom _ _ (fun _ _ => rfl) 0 calls.toList

/-- What is known of the frames of an outcome: they are those of some state of the run, and the
innermost one stands at what halted the run, if that was halted. -/
def Traced (i : Interpreter) (scope : ScopeId) (halt : Node → Bool) (stop : Option HaltReason)
    (frames : FrameChain) : Prop :=
  ∃ n f, frames.Records i (i.runningAt scope halt n) ∧ frames.top? = some f ∧
    match stop with
    | none => True
    | some .breakpoint => haltsAt (i.setting halt) f.pc = true
    | some .debuggerStatement => i.tree.kind f.pc = .debuggerStatement

lemma lt_size_of_haltsAt {id : NodeId} (h : haltsAt (i.setting halt) id = true) :
    id < i.tree.size := by
  obtain ⟨n, hn, -⟩ := (Option.any_eq_true ..).mp h
  exact (Array.getElem?_eq_some_iff.mp hn).1

lemma Invariant.traced {n : Nat} (h : i.Invariant scope halt n) (room : 0 < i.maxDepth)
    (hw : i.tree.WellFormed) {a : Activation} {as : List Activation}
    (htop : (i.stateAt scope halt n).calls.toList = a :: as) (inside : a.pc < i.tree.size)
    (stop : Option HaltReason)
    (hstop : match stop with
      | none => True
      | some .breakpoint => haltsAt (i.setting halt) a.pc = true
      | some .debuggerStatement => i.tree.kind a.pc = .debuggerStatement) :
    i.Traced scope halt stop (i.stateAt scope halt n).calls.capture := by
  have top := CallStack.top?_capture (i.stateAt scope halt n).calls
  rw [CallStack.top?_eq_head?, htop, List.head?_cons, Option.map_some, Option.map_eq_some_iff]
    at top
  obtain ⟨f, hf, same⟩ := top
  have pc : f.pc = a.pc := congrArg Prod.fst same
  refine ⟨n, f, h.records room hw htop inside, hf, ?_⟩
  rw [pc]
  exact hstop

/-- The frames of an exception and of a halt are those of a state of the run. -/
lemma Seen.traced {n : Nat} (hw : i.tree.WellFormed) (room : 0 < i.maxDepth) {a : Abrupt}
    (h : i.Seen scope halt n a) :
    (∀ v frames, a = .thrown v frames → i.Traced scope halt none frames) ∧
      ∀ reason frames, a = .halted reason frames → i.Traced scope halt (some reason) frames := by
  obtain ⟨k, -, hcontrol, captured⟩ := h
  have invariant := invariant scope halt hw room k
  refine ⟨fun v frames ha => ?_, fun reason frames ha => ?_⟩
  · subst ha
    obtain ⟨rfl, top, as, htop, inside⟩ := captured
    exact invariant.traced room hw htop (Nat.lt_of_succ_lt inside) none trivial
  · subst ha
    cases reason with
    | breakpoint =>
      obtain ⟨rfl, top, as, htop, halts⟩ := captured
      exact invariant.traced room hw htop (lt_size_of_haltsAt halts) (some .breakpoint) halts
    | debuggerStatement =>
      obtain ⟨rfl, top, as, htop, kind⟩ := captured
      have kind : i.tree.kind top.pc = .debuggerStatement := kind
      have inside := inside_of_debugger (e := i.setting halt) hw kind
      exact invariant.traced room hw htop (Nat.lt_of_succ_lt inside) (some .debuggerStatement) kind

lemma Seen.debugger {n : Nat} (quiet : ∀ id, haltsAt (i.setting halt) id = false)
    {reason : HaltReason} {frames : FrameChain}
    (h : i.Seen scope halt n (.halted reason frames)) : reason = .debuggerStatement := by
  cases reason with
  | breakpoint =>
    obtain ⟨k, -, -, -, top, -, -, halts⟩ := h
    rw [quiet] at halts
    cases halts
  | debuggerStatement => rfl

/-- Where no breakpoint halts a run, all frames that are captured stand inside the program. -/
lemma Seen.inside {n : Nat} (hw : i.tree.WellFormed) (room : 0 < i.maxDepth) {a : Abrupt}
    (quiet : ∀ id, haltsAt (i.setting halt) id = false) (h : i.Seen scope halt n a)
    {frames : FrameChain}
    (ha : (∃ v, a = .thrown v frames) ∨ ∃ reason, a = .halted reason frames) :
    frames.Chained ∧ 0 < frames.length ∧ ∀ f ∈ frames.frames, (i.setting halt).Inside f.pc := by
  have at_ : ∃ k, frames = (i.stateAt scope halt k).calls.capture ∧
      ∃ a as, (i.stateAt scope halt k).calls.toList = a :: as ∧
        (i.setting halt).Inside a.pc := by
    rcases ha with ⟨v, rfl⟩ | ⟨reason, rfl⟩
    · obtain ⟨k, -, -, captured⟩ := h
      exact ⟨k, captured⟩
    · obtain rfl := h.debugger quiet
      obtain ⟨k, -, -, same, top, as, htop, kind⟩ := h
      exact ⟨k, same, top, as, htop, inside_of_debugger hw kind⟩
  obtain ⟨k, rfl, top, as, htop, inside⟩ := at_
  set calls := (i.stateAt scope halt k).calls
  have callers := (invariant scope halt hw room k).sound.callers
  refine ⟨calls.capture_chained, ?_, fun f hf => ?_⟩
  · rw [CallStack.length_capture, ← CallStack.length_toList, htop]
    exact Nat.succ_pos _
  · have mem : f.pc ∈ calls.toList.map (·.pc) := by
      rw [← CallStack.map_pc_capture]
      exact List.mem_map_of_mem hf
    rw [htop] at mem
    rcases List.mem_cons.mp mem with first | mem
    · rwa [first]
    · obtain ⟨b, hb, hpc⟩ := List.mem_map.mp mem
      rw [← hpc]
      refine inside_of_isCall hw (callers b ?_)
      have rest : (i.stateAt scope halt k).calls.toList.tail = as := congrArg List.tail htop
      rw [rest]
      exact hb

/-- What the last state of a run ends in has been seen. -/
lemma seen_of_run (hw : i.tree.WellFormed) (room : 0 < i.maxDepth) {fuel : Nat} {m : Machine}
    (hrun : (i.startProgram scope halt).run (i.setting halt) fuel = some m) {a : Abrupt}
    (ha : m.control = .abrupt a) : ∃ n, i.Seen scope halt n a := by
  obtain ⟨-, n, -, rfl⟩ := run_eq_some_iff.mp hrun
  have control := (invariant scope halt hw room n).sound.control
  have ha' : (i.stateAt scope halt n).control = .abrupt a := ha
  rw [ControlAt, ha'] at control
  rcases control.2 with seen | captured
  · exact ⟨n, seen⟩
  · exact ⟨n, n, Nat.le_refl n, ha, captured⟩

lemma control_of_raised {m : Machine} {error : ThrownError} {frames : FrameChain}
    (h : outcomeOf scope m = .raised error frames) :
    ∃ v, m.control = .abrupt (.thrown v frames) := by
  obtain ⟨store, calls, output, control, pending⟩ := m
  cases control with
  | abrupt a =>
    cases a with
    | thrown v frames' =>
      cases h
      exact ⟨v, rfl⟩
    | _ => cases h
  | _ => cases h

/-- The frames of every outcome of a program are those of a state of its run. -/
theorem traced_of_runProgram (hw : i.tree.WellFormed) (room : 0 < i.maxDepth) {fuel : Nat} {r : Run}
    (hr : i.runProgram fuel scope halt = some r) :
    (∀ error frames, r.outcome = .raised error frames → i.Traced scope halt none frames) ∧
      ∀ reason frames, r.outcome = .halted reason frames →
        i.Traced scope halt (some reason) frames := by
  obtain ⟨m, hrun, rfl⟩ := i.runProgram_eq_some.mp hr
  refine ⟨fun error frames hout => ?_, fun reason frames hout => ?_⟩
  · obtain ⟨v, hcontrol⟩ := control_of_raised hout
    obtain ⟨n, seen⟩ := seen_of_run hw room hrun hcontrol
    exact (seen.traced hw room).1 v frames rfl
  · obtain ⟨n, seen⟩ := seen_of_run hw room hrun (outcomeOf_eq_halted.mp hout)
    exact (seen.traced hw room).2 reason frames rfl

end Interpreter

end ScriptDebugger
