import ScriptDebugger.Machine.Interpreter
import ScriptDebugger.Proofs.Machine.Activation

/-!
# Calls and the balance of activations

A call either finds room on the call stack and starts the body of the function
in a new activation, or throws where the caller stands. Either way, and in every
other step, there is one activation for each pending entry that ends one
(`Balanced`), output and closures are only added (`Follows`), and the scopes
that the machine refers to are there (`Scoped.step`).
-/

namespace ScriptDebugger

namespace Machine

variable {e : Setting} {m : Machine}

/-- The store in which a function starts, with its parameters and its declarations bound. -/
def enteredStore (e : Setting) (s : Store) (c : Closure) (args : List Value) : Store :=
  let (s, scope) := s.newScope (some c.scope)
  (bindParams s scope c.params args).hoist e scope (e.tree.blockBody c.body)

lemma grows_enteredStore (s : Store) (c : Closure) (args : List Value) :
    s.Grows (enteredStore e s c args) :=
  ((Store.Grows.newScope s _).trans (Store.SameScopes.bindParams _ _ _ _).grows).trans
    (.hoist _ e _ _)

/-- With room on the call stack, a function gets an activation at its body. -/
lemma enterFunction_of_room (c : Closure) (args : List Value) (next : Machine → Machine)
    (room : m.calls.depth < m.calls.maxDepth) :
    ∃ calls : CallStack,
      calls.toList = ⟨c.body, m.store.scopes.size, c.name⟩ :: m.calls.toList ∧
      calls.maxDepth = m.calls.maxDepth ∧
      m.enterFunction e c args next =
        next ⟨enteredStore e m.store c args, calls, m.output, m.control, m.pending⟩ := by
  obtain ⟨calls, hpush, hcalls, hmax⟩ :=
    CallStack.push?_of_lt ⟨c.body, m.store.scopes.size, c.name⟩ room
  refine ⟨calls, hcalls, hmax, ?_⟩
  simp only [enterFunction, enter, Store.newScope, hpush, enteredStore]

/-- Without room, it throws where the caller stands. -/
lemma enterFunction_of_full (c : Closure) (args : List Value) (next : Machine → Machine)
    (full : ¬ m.calls.depth < m.calls.maxDepth) :
    m.enterFunction e c args next = Machine.throwFault
      { m with store := (bindParams (m.store.newScope (some c.scope)).1 m.store.scopes.size
          c.params args) } .stackExceeded := by
  have hpush := CallStack.push?_of_not_lt ⟨c.body, m.store.scopes.size, c.name⟩ full
  simp only [enterFunction, enter, Store.newScope, hpush]

/-- A function is entered in an activation of its own, or the caller throws. -/
lemma enterFunction_cases {Q : Machine → Prop} (c : Closure) (args : List Value)
    (next : Machine → Machine)
    (entered : ∀ calls : CallStack,
      calls.toList = ⟨c.body, m.store.scopes.size, c.name⟩ :: m.calls.toList →
      Q (next ⟨enteredStore e m.store c args, calls, m.output, m.control, m.pending⟩))
    (full : Q (Machine.throwFault { m with store := (bindParams
      (m.store.newScope (some c.scope)).1 m.store.scopes.size c.params args) } .stackExceeded)) :
    Q (m.enterFunction e c args next) := by
  by_cases room : m.calls.depth < m.calls.maxDepth
  · obtain ⟨calls, hcalls, -, hbody⟩ := enterFunction_of_room (e := e) c args next room
    rw [hbody]
    exact entered calls hcalls
  · rw [enterFunction_of_full c args next room]
    exact full

/-- With room on the call stack, a call adds one activation at the body of the function. -/
lemma callClosure_of_room (c : Closure) (args : List Value)
    (room : m.calls.depth < m.calls.maxDepth) :
    ∃ calls : CallStack,
      calls.toList = ⟨c.body, m.store.scopes.size, c.name⟩ :: m.calls.toList ∧
      calls.maxDepth = m.calls.maxDepth ∧
      m.callClosure e c args = runBody e c.body
        ⟨enteredStore e m.store c args, calls, m.output, m.control, .leave :: m.pending⟩ :=
  enterFunction_of_room c args (fun m => runBody e c.body (m.push .leave)) room

lemma callClosure_of_full (c : Closure) (args : List Value)
    (full : ¬ m.calls.depth < m.calls.maxDepth) :
    ∃ s, m.store.Grows s ∧
      m.callClosure e c args = Machine.throwFault { m with store := s } .stackExceeded :=
  ⟨_, (Store.Grows.newScope m.store (some c.scope)).trans
    (Store.SameScopes.bindParams _ m.store.scopes.size c.params args).grows,
    enterFunction_of_full c args _ full⟩

lemma follows_poised (m : Machine) : Follows e m m.poised :=
  ⟨⟨"", by simp [poised]⟩, .refl _, rfl, .inl⟩

lemma Follows.callClosure {m' : Machine} (h : Follows e m m') (c : Closure) (args : List Value) :
    Follows e m (m'.callClosure e c args) := by
  by_cases room : m'.calls.depth < m'.calls.maxDepth
  · obtain ⟨calls, -, hmax, hbody⟩ := callClosure_of_room (e := e) c args room
    rw [hbody]
    have entered : Follows e m' ⟨enteredStore e m'.store c args, calls, m'.output, m'.control,
        .leave :: m'.pending⟩ := ⟨⟨"", by simp⟩, grows_enteredStore _ c args, hmax, .inl⟩
    exact (h.trans entered).trans ((SameScope.refl _).runBody c.body).toFollows
  · obtain ⟨s, hs, hthrow⟩ := callClosure_of_full (e := e) c args room
    rw [hthrow]
    exact (h.trans (SameActivation.withStore m' hs).toFollows).trans
      ((SameScope.refl _).throwFault _).toFollows

/-- Output and closures are only added, and the limit of the call stack stays. -/
theorem follows_step (m : Machine) : Follows e m (m.step e) := by
  cases hf : m.isFinal with
  | true =>
    rw [step_of_isFinal hf]
    exact .refl m
  | false =>
    cases step_cases (e := e) hf with
    | within called resumed scope =>
      exact (follows_poised m).trans scope.sameActivation.toFollows
    | call c args m' called scope quiet resumed step =>
      rw [step]
      exact ((follows_poised m).trans scope.sameActivation.toFollows).callClosure c args
    | leave called control ended resumed stop step =>
      rw [step]
      exact ⟨⟨"", by simp⟩, .refl _, rfl, fun hs => .inl (stop _ hs)⟩

theorem follows_steps (m : Machine) (n : Nat) : Follows e m (m.steps e n) := by
  induction n with
  | zero => exact .refl m
  | succ n ih =>
    rw [steps_succ]
    exact ih.trans (follows_step _)

/-- There is an activation for each entry that ends one, and until everything has ended the
outermost such entry is the last of all. -/
structure Balanced (m : Machine) : Prop where
  depth : m.calls.depth = m.pending.countP Pending.isLeave
  last : m.isFinal = true ∨ ∃ ps, m.pending = ps ++ [.leave]

lemma countP_isLeave_eq_zero {ps : List Pending} (h : ∀ p ∈ ps, p.isLeave = false) :
    ps.countP Pending.isLeave = 0 := by
  refine List.countP_eq_zero.mpr fun p hp => ?_
  rw [h p hp]
  exact Bool.false_ne_true

lemma SameActivation.depth_eq {m' : Machine} (h : SameActivation e m m') :
    m'.calls.depth = m.calls.depth := by
  obtain ⟨f, -, hc⟩ := h.calls
  rw [← CallStack.length_toList, hc, List.length_modifyHead, CallStack.length_toList]

lemma SameActivation.countP_eq {m' : Machine} (h : SameActivation e m m') :
    m'.pending.countP Pending.isLeave = m.pending.countP Pending.isLeave := by
  obtain ⟨ps, hps, hp⟩ := h.pending
  rw [hp, List.countP_append, countP_isLeave_eq_zero hps, Nat.zero_add]

lemma SameActivation.last {m' : Machine} (h : SameActivation e m m')
    (hl : ∃ ps, m.pending = ps ++ [.leave]) : ∃ ps, m'.pending = ps ++ [.leave] := by
  obtain ⟨qs, -, hq⟩ := h.pending
  obtain ⟨ps, hp⟩ := hl
  exact ⟨qs ++ ps, by rw [hq, hp, List.append_assoc]⟩

lemma last_of_cons {p : Pending} {ps : List Pending} (hp : p.isLeave = false)
    (h : ∃ qs, p :: ps = qs ++ [Pending.leave]) : ∃ qs, ps = qs ++ [Pending.leave] := by
  obtain ⟨qs, hq⟩ := h
  cases qs with
  | nil =>
    obtain ⟨rfl, -⟩ := List.cons.inj hq
    cases hp
  | cons q qs => exact ⟨qs, (List.cons.inj hq).2⟩

/-- Taking an entry that ends no activation keeps the balance. -/
lemma Balanced.poised (h : Balanced m) (hf : m.isFinal = false)
    (resumed : ∀ p, m.resumed? = some p → p.isLeave = false) :
    m.poised.calls.depth = m.poised.pending.countP Pending.isLeave ∧
      ∃ ps, m.poised.pending = ps ++ [.leave] := by
  have hl : ∃ ps, m.pending = ps ++ [.leave] := h.last.resolve_left (by simp [hf])
  cases hr : m.resumed? with
  | none =>
    rw [poised_of_none hr]
    exact ⟨h.depth, hl⟩
  | some p =>
    have hp := resumed p hr
    have split := pending_of_resumed hr
    have hd := h.depth
    rw [split] at hl hd
    rw [List.countP_cons_of_neg (by simp [hp])] at hd
    exact ⟨hd, last_of_cons hp hl⟩

lemma balanced_of_same (e : Setting) {m' : Machine} (same : SameActivation e m m')
    (depth : m.calls.depth = m.pending.countP Pending.isLeave)
    (last : ∃ ps, m.pending = ps ++ [.leave]) : Balanced m' where
  depth := by rw [same.depth_eq, same.countP_eq, depth]
  last := .inr (same.last last)

theorem Balanced.step (h : Balanced m) : Balanced (m.step e) := by
  cases hf : m.isFinal with
  | true => rwa [step_of_isFinal hf]
  | false =>
    cases step_cases (e := e) hf with
    | within called resumed scope =>
      obtain ⟨hd, hl⟩ := h.poised hf resumed
      exact balanced_of_same e scope.sameActivation hd hl
    | call c args m' called scope quiet resumed step =>
      have same := scope.sameActivation
      obtain ⟨hd, hl⟩ := h.poised hf resumed
      rw [← same.depth_eq, ← same.countP_eq] at hd
      have hl := same.last hl
      rw [step]
      by_cases room : m'.calls.depth < m'.calls.maxDepth
      · obtain ⟨calls, hcalls, -, hbody⟩ := callClosure_of_room (e := e) c args room
        rw [hbody]
        refine balanced_of_same e ((SameScope.refl _).runBody c.body).toSameActivation ?_ ?_
        · rw [List.countP_cons_of_pos rfl, ← hd, ← CallStack.length_toList, hcalls,
            List.length_cons, CallStack.length_toList]
        · obtain ⟨ps, hp⟩ := hl
          exact ⟨.leave :: ps, by rw [hp]; rfl⟩
      · obtain ⟨s, hs, hthrow⟩ := callClosure_of_full (e := e) c args room
        rw [hthrow]
        exact balanced_of_same e ((SameActivation.withStore m' hs).trans
          ((SameScope.refl _).throwFault _).toSameActivation) hd hl
    | leave called control ended resumed stop step =>
      have split := pending_of_resumed resumed
      have hd := h.depth
      have hl := h.last.resolve_left (by simp [hf])
      rw [split] at hd hl
      rw [List.countP_cons_of_pos rfl] at hd
      rw [step]
      constructor
      · rw [← CallStack.length_toList, CallStack.toList_pop, List.length_tail,
          CallStack.length_toList, hd, Nat.add_sub_cancel]
      · obtain ⟨ps, hp⟩ := hl
        cases ps with
        | nil =>
          have empty : m.poised.pending = [] := (List.cons.inj hp).2
          left
          rw [empty]
          have := ended [.leave]
          cases control <;> first | rfl | cases this
        | cons p ps => exact .inr ⟨ps, (List.cons.inj hp).2⟩

/-- While something is left to do, there is an activation. -/
lemma Balanced.exists_top (h : Balanced m) (hf : m.isFinal = false) :
    ∃ a as, m.calls.toList = a :: as := by
  obtain ⟨ps, hp⟩ := h.last.resolve_left (by simp [hf])
  have hd := h.depth
  rw [hp, List.countP_append, ← CallStack.length_toList] at hd
  cases hc : m.calls.toList with
  | nil => simp [hc, Pending.isLeave] at hd
  | cons a as => exact ⟨a, as, rfl⟩

/-- A function that the next step calls was closed over a scope that there is. -/
lemma scope_lt_of_called {m' : Machine} (h : m'.store.Scoped e) (grows : m.store.Grows m'.store)
    {c : Closure} (called : m.called? = some c) : c.scope < m'.store.scopes.size := by
  have made : ∃ ref, c = m.store.closure ref := by
    simp only [called?] at called
    split at called
    case h_1 ref _ => exact ⟨ref, (Option.some.inj called).symm⟩
    case h_2 => cases called
  obtain ⟨ref, rfl⟩ := made
  rw [Store.closure]
  cases hc : m.store.closures[ref]? with
  | none => exact h.nonempty
  | some c =>
    have mem : c ∈ m'.store.closures.toList :=
      grows.closures.subset (Array.mem_toList_iff.mpr (Array.mem_of_getElem? hc))
    exact (h.closures c (Array.mem_toList_iff.mp mem)).1

/-- A function that is called refers to scopes that there are, whether it is entered or not. -/
lemma Scoped.enterFunction (h : m.Scoped e) {c : Closure} (hc : c.scope < m.store.scopes.size)
    (args : List Value) {Q : Machine → Prop} {next : Machine → Machine}
    (hnext : ∀ {m'}, m'.Scoped e → Q (next m')) (hfull : ∀ {m'}, m'.Scoped e → Q m') :
    Q (m.enterFunction e c args next) := by
  have size : (m.store.newScope (some c.scope)).1.scopes.size = m.store.scopes.size + 1 := by
    simp [Store.newScope]
  have bound := Store.SameScopes.bindParams (m.store.newScope (some c.scope)).1
    m.store.scopes.size c.params args
  have opened := (h.store.newScope hc).of_same bound
  have size' := bound.size.trans size
  refine enterFunction_cases c args next (fun calls hcalls => hnext ?_) ?_
  · have inside := Nat.lt_of_lt_of_eq (Nat.lt_succ_self m.store.scopes.size) size'.symm
    obtain ⟨hoisted, size''⟩ := opened.hoist inside (e.tree.blockBody c.body)
    have grown : m.store.scopes.size < (enteredStore e m.store c args).scopes.size :=
      Nat.lt_of_lt_of_eq inside size''.symm
    refine ⟨hoisted, fun a ha => ?_, fun outer ho => Nat.lt_trans (h.restores outer ho) grown⟩
    rw [hcalls] at ha
    rcases List.mem_cons.mp ha with rfl | ha
    · exact grown
    · exact Nat.lt_trans (h.activations a ha) grown
  · exact hfull (((SameScope.refl _).throwFault _).wellScoped (h.withStore opened (by omega)))

lemma Scoped.callClosure (h : m.Scoped e) {c : Closure} (hc : c.scope < m.store.scopes.size)
    (args : List Value) : (m.callClosure e c args).Scoped e :=
  h.enterFunction hc args
    (fun h' => ((SameScope.refl _).runBody c.body).wellScoped (h'.push nofun)) id

/-- So does an activation that is entered in such a scope. -/
lemma Scoped.enter (h : m.Scoped e) {a : Activation} (ha : a.scope < m.store.scopes.size)
    {next : Machine → Machine} (hnext : ∀ {m'}, m'.Scoped e → m'.store = m.store →
      (next m').Scoped e) : (m.enter a next).Scoped e := by
  by_cases room : m.calls.depth < m.calls.maxDepth
  · obtain ⟨calls, hpush, hcalls, -⟩ := CallStack.push?_of_lt a room
    simp only [Machine.enter, hpush]
    refine hnext ⟨h.store, fun b hb => ?_, h.restores⟩ rfl
    rw [hcalls] at hb
    rcases List.mem_cons.mp hb with rfl | hb
    · exact ha
    · exact h.activations b hb
  · simp only [Machine.enter, CallStack.push?_of_not_lt a room]
    exact ((SameScope.refl _).throwFault _).wellScoped h

lemma Scoped.poised (h : m.Scoped e) : m.poised.Scoped e :=
  ⟨h.store, h.activations, fun outer ho => h.restores outer (List.mem_of_mem_drop ho)⟩

lemma Scoped.passed (h : m.Scoped e) : m.passed.Scoped e := by
  simp only [Machine.passed]
  split
  case h_1 outer hr =>
    refine h.poised.setScope (h.restores outer ?_)
    rw [pending_of_resumed hr]
    exact List.mem_cons_self
  case h_2 => exact h.poised

lemma scoped_of_nothing_left {s : Store} (h : s.Scoped e) (maxDepth : Nat) (output : String) :
    Scoped e ⟨s, .empty maxDepth, output, .done, []⟩ := ⟨h, nofun, nofun⟩

/-- No step refers to a scope that there is not. -/
theorem Scoped.step (h : m.Scoped e) : (m.step e).Scoped e := by
  cases hf : m.isFinal with
  | true => rwa [step_of_isFinal hf]
  | false =>
    cases step_cases (e := e) hf with
    | within called resumed scope => exact scope.wellScoped h.passed
    | call c args m' called scope quiet resumed step =>
      have inOrder := scope.wellScoped h.passed
      have grows : m.store.Grows m'.store := scope.sameActivation.store
      rw [step]
      exact inOrder.callClosure (scope_lt_of_called inOrder.store grows called) args
    | leave called control ended resumed stop step =>
      rw [step]
      refine ⟨h.store, fun a ha => h.activations a ?_, h.poised.restores⟩
      rw [CallStack.toList_pop] at ha
      exact List.mem_of_mem_tail ha

end Machine

namespace Interpreter

open Machine

variable (i : Interpreter) (scope : ScopeId) (halt : Node → Bool)

/-- The node of the interpreter's program. -/
def root : NodeId := i.tree.root.getD 0

/-- The statements of the interpreter's program. -/
def body : List NodeId := programBody i.tree i.root

/-- With room for one activation, the program starts in it. -/
lemma startProgram_of_room (room : 0 < i.maxDepth) :
    ∃ calls : CallStack, calls.toList = [⟨i.root, scope, none⟩] ∧
      calls.maxDepth = i.maxDepth ∧
      i.startProgram scope halt =
        Machine.runStatements ⟨i.store.hoist (i.setting halt) scope i.body, calls, "", .done,
          [.leave]⟩ i.body := by
  obtain ⟨calls, hpush, hcalls, hmax⟩ := CallStack.push?_of_lt (c := i.idle.calls)
    ⟨i.root, scope, none⟩ room
  refine ⟨calls, hcalls, hmax, ?_⟩
  simp only [root] at hpush
  simp only [startProgram, enter, hpush]
  rfl

lemma startProgram_of_full (full : ¬ 0 < i.maxDepth) :
    i.startProgram scope halt = i.idle.throwFault .stackExceeded := by
  have hpush := CallStack.push?_of_not_lt (c := i.idle.calls)
    ⟨i.root, scope, none⟩ full
  simp only [root] at hpush
  simp only [startProgram, enter, hpush]

lemma balanced_startProgram : Balanced (i.startProgram scope halt) := by
  by_cases room : 0 < i.maxDepth
  · obtain ⟨calls, hcalls, -, hstart⟩ := i.startProgram_of_room scope halt room
    rw [hstart]
    refine balanced_of_same (i.setting halt)
      ((SameScope.refl _).runStatements i.body).toSameActivation ?_
      ⟨[], rfl⟩
    rw [← CallStack.length_toList, hcalls]
    rfl
  · rw [i.startProgram_of_full scope halt room]
    exact ⟨rfl, .inl rfl⟩

lemma stop?_startProgram : (i.startProgram scope halt).control.stop? = none := by
  by_cases room : 0 < i.maxDepth
  · obtain ⟨calls, -, -, hstart⟩ := i.startProgram_of_room scope halt room
    rw [hstart]
    cases i.body <;> rfl
  · rw [i.startProgram_of_full scope halt room]
    rfl

lemma scoped_startProgram {scope : ScopeId} (h : i.store.Scoped (i.setting halt))
    (hscope : scope < i.store.scopes.size) :
    (i.startProgram scope halt).Scoped (i.setting halt) := by
  have idle := scoped_of_nothing_left h i.maxDepth ""
  unfold startProgram
  refine idle.enter (a := ⟨i.root, scope, none⟩) hscope
    fun {m} hm (same : m.store = i.store) => ?_
  rw [← same] at hscope
  obtain ⟨hoisted, size⟩ := hm.store.hoist hscope i.body
  have entered := (hm.withStore hoisted (Nat.le_of_eq size.symm)).push (p := .leave) nofun
  exact ((SameScope.refl _).runStatements i.body).wellScoped entered

end Interpreter

lemma Store.scoped_initial (e : Setting) : Store.initial.Scoped e where
  nonempty := Nat.lt_succ_self 0
  root := rfl
  inner := by
    intro id pos inside
    have size : Store.initial.scopes.size = 1 := rfl
    omega
  closures := by
    intro c hc
    have none : Store.initial.closures = #[] := rfl
    rw [none] at hc
    exact absurd hc (Array.not_mem_empty c)

end ScriptDebugger
