import ScriptDebugger.Proofs.Machine.Run
import ScriptDebugger.Proofs.Machine.Within

/-!
# What a step does to the call stack

Most of a script runs within one activation: work that neither calls a function
of the script nor returns from one moves the program counter and the scope of
the innermost activation, adds entries to the pending work and writes output,
and touches nothing else (`SameActivation`). What it adds to the pending work
leads back to the scope that it started in (`SameScope`). `step_cases` says that
a step is such work, a call or the end of an activation.
-/

namespace ScriptDebugger

/-- Why the run is being halted, if it is. -/
def Control.stop? : Control → Option HaltReason
  | .abrupt (.halted reason _) => some reason
  | _ => none

/-- The call whose parts an entry waits for. -/
def Pending.site? : Pending → Option CallSite
  | .callee site _ | .arguments site _ _ _ => some site
  | _ => none

/-- Whether an entry ends an activation. -/
def Pending.isLeave : Pending → Bool
  | .leave => true
  | _ => false

lemma Pending.isLeave_of_unwinds {p : Pending} (hp : p.unwinds = false) : p.isLeave = false := by
  cases p <;> first | rfl | cases hp

namespace Machine

/-- What holds of later states of a run whatever happens to the call stack. -/
structure Follows (e : Setting) (m m' : Machine) : Prop where
  output : ∃ rest, m'.output = m.output ++ rest
  store : m.store.Grows m'.store
  maxDepth : m'.calls.maxDepth = m.calls.maxDepth
  /-- Only a node that halts the run brings a breakpoint about. -/
  stop : m'.control.stop? = some .breakpoint →
    m.control.stop? = some .breakpoint ∨ ∃ id, haltsAt e id = true

namespace Follows

variable {e : Setting}

lemma refl (m : Machine) : Follows e m m := ⟨⟨"", by simp⟩, .refl _, rfl, .inl⟩

lemma trans {m m' m'' : Machine} (h : Follows e m m') (h' : Follows e m' m'') :
    Follows e m m'' where
  output := by
    obtain ⟨r, hr⟩ := h.output
    obtain ⟨r', hr'⟩ := h'.output
    exact ⟨r ++ r', by rw [hr', hr, String.append_assoc]⟩
  store := h.store.trans h'.store
  maxDepth := h'.maxDepth.trans h.maxDepth
  stop := fun hs => (h'.stop hs).elim h.stop .inr

end Follows

/-- `m'` comes from `m` by work within the innermost activation of `m`. -/
structure SameActivation (e : Setting) (m m' : Machine) : Prop extends Follows e m m' where
  calls : ∃ f : Activation → Activation,
    (∀ a, (f a).name = a.name) ∧ m'.calls.toList = m.calls.toList.modifyHead f
  pending : ∃ ps, (∀ p ∈ ps, p.isLeave = false) ∧ m'.pending = ps ++ m.pending

namespace SameActivation

variable {e : Setting}

lemma refl (m : Machine) : SameActivation e m m where
  toFollows := .refl m
  calls := ⟨id, fun _ => rfl, by simp⟩
  pending := ⟨[], by simp, rfl⟩

lemma trans {m m' m'' : Machine} (h : SameActivation e m m') (h' : SameActivation e m' m'') :
    SameActivation e m m'' where
  toFollows := h.toFollows.trans h'.toFollows
  calls := by
    obtain ⟨f, hf, hc⟩ := h.calls
    obtain ⟨g, hg, hc'⟩ := h'.calls
    refine ⟨g ∘ f, fun a => (hg (f a)).trans (hf a), ?_⟩
    rw [hc', hc, List.modifyHead_modifyHead]
  pending := by
    obtain ⟨ps, hps, hp⟩ := h.pending
    obtain ⟨qs, hqs, hq⟩ := h'.pending
    refine ⟨qs ++ ps, fun p hm => ?_, by rw [hq, hp, List.append_assoc]⟩
    rcases List.mem_append.mp hm with hm | hm
    · exact hqs p hm
    · exact hps p hm

variable {m m' : Machine}

lemma modifyTop (m : Machine) {f : Activation → Activation} (hf : ∀ a, (f a).name = a.name) :
    SameActivation e m { m with calls := m.calls.modifyTop f } where
  toFollows := ⟨⟨"", by simp⟩, .refl _, rfl, .inl⟩
  calls := ⟨f, hf, CallStack.toList_modifyTop _ f⟩
  pending := ⟨[], by simp, rfl⟩

lemma withStore (m : Machine) {s : Store} (grows : m.store.Grows s) :
    SameActivation e m { m with store := s } where
  toFollows := ⟨⟨"", by simp⟩, grows, rfl, .inl⟩
  calls := ⟨id, fun _ => rfl, by simp⟩
  pending := ⟨[], by simp, rfl⟩

end SameActivation

/-- The same, when the entries that are added lead back to the scope of the activation; scopes
stay in order. -/
structure SameScope (e : Setting) (m m' : Machine) : Prop extends SameActivation e m m' where
  unwound : ∃ ps, m'.pending = ps ++ m.pending ∧
    SameButPc (unwind ps m'.calls.toList) m.calls.toList
  wellScoped : m.Scoped e → m'.Scoped e

namespace SameScope

variable {e : Setting}

lemma refl (m : Machine) : SameScope e m m where
  toSameActivation := .refl m
  unwound := ⟨[], rfl, .refl _⟩
  wellScoped := id

lemma trans {m m' m'' : Machine} (h : SameScope e m m') (h' : SameScope e m' m'') :
    SameScope e m m'' where
  toSameActivation := h.toSameActivation.trans h'.toSameActivation
  unwound := by
    obtain ⟨ps, hp, hu⟩ := h.unwound
    obtain ⟨qs, hq, hu'⟩ := h'.unwound
    refine ⟨qs ++ ps, by rw [hq, hp, List.append_assoc], ?_⟩
    rw [unwind_append]
    exact (hu'.unwind ps).trans hu
  wellScoped := h'.wellScoped ∘ h.wellScoped

variable {m m' : Machine}

lemma endsIn (h : SameScope e m m') (control : Control)
    (hc : control.stop? = some .breakpoint →
      m.control.stop? = some .breakpoint ∨ ∃ id, haltsAt e id = true) :
    SameScope e m (m'.goTo control) where
  toFollows := ⟨h.output, h.store, h.maxDepth, hc⟩
  calls := h.calls
  pending := h.pending
  unwound := h.unwound
  wellScoped := fun hs => (h.wellScoped hs).goTo control

lemma goTo (h : SameScope e m m') (control : Control) (hc : control.stop? = none) :
    SameScope e m (m'.goTo control) := by
  refine h.endsIn control fun hs => ?_
  rw [hc] at hs
  cases hs

lemma halt (h : SameScope e m m') (reason : HaltReason)
    (hr : reason = .breakpoint → ∃ id, haltsAt e id = true) :
    SameScope e m (m'.halt reason) :=
  h.endsIn _ fun hs => .inr (hr (Option.some.inj hs))

lemma setPc (h : SameScope e m m') (id : NodeId) : SameScope e m (m'.setPc id) :=
  h.trans
    { toSameActivation := .modifyTop m' fun _ => rfl
      unwound := ⟨[], rfl, by
        rw [unwind, Machine.setPc, CallStack.setPc, CallStack.toList_modifyTop]
        exact .of_pc _ id⟩
      wellScoped := fun hs => hs.setPc id }

lemma push (h : SameScope e m m') {p : Pending} (hp : p.unwinds = false) :
    SameScope e m (m'.push p) :=
  h.trans
    { toFollows := ⟨⟨"", by simp [Machine.push]⟩, .refl _, rfl, .inl⟩
      calls := ⟨id, fun _ => rfl, by simp [Machine.push]⟩
      pending := ⟨[p], by simpa using Pending.isLeave_of_unwinds hp, rfl⟩
      unwound := ⟨[p], rfl, by rw [unwind_cons hp]; exact .refl _⟩
      wellScoped := fun hs => hs.push fun outer ho => by subst ho; cases hp }

/-- A change of the store that may add scopes and closures. -/
lemma withScoped (h : SameScope e m m') {s : Store} (grows : m'.store.Grows s)
    (inOrder : m'.Scoped e → Scoped e { m' with store := s }) :
    SameScope e m { m' with store := s } where
  toFollows := ⟨h.output, h.store.trans grows, h.maxDepth, h.stop⟩
  calls := h.calls
  pending := h.pending
  unwound := h.unwound
  wellScoped := inOrder ∘ h.wellScoped

lemma withStore (h : SameScope e m m') {s : Store} (same : m'.store.SameScopes s) :
    SameScope e m { m' with store := s } :=
  h.withScoped same.grows fun hs =>
    hs.withStore (hs.store.of_same same) (Nat.le_of_eq same.size.symm)

/-- Work in a new scope, until it is left. -/
lemma newScope (h : SameScope e m m') :
    SameScope e m (Machine.setScope (Machine.push
      { m' with store := (m'.store.newScope (some m'.scope)).1 } (.restoreScope m'.scope))
      m'.store.scopes.size) := by
  have entered : SameActivation e m' (Machine.setScope (Machine.push
      { m' with store := (m'.store.newScope (some m'.scope)).1 } (.restoreScope m'.scope))
      m'.store.scopes.size) :=
    { toFollows := ⟨⟨"", by simp [Machine.setScope, Machine.push]⟩, .newScope _ _, rfl, .inl⟩
      calls := ⟨fun a => { a with scope := m'.store.scopes.size }, fun _ => rfl,
        CallStack.toList_modifyTop _ _⟩
      pending := ⟨[.restoreScope m'.scope], by simp [Pending.isLeave], rfl⟩ }
  refine h.trans ⟨entered, ⟨[.restoreScope m'.scope], rfl, ?_⟩, fun hs => ?_⟩
  · have back : SameButPc (m'.calls.toList.modifyHead ((fun a => { a with scope := m'.scope }) ∘
        fun a => { a with scope := m'.store.scopes.size })) m'.calls.toList := by
      rw [Machine.scope, CallStack.top?_eq_head?]
      cases m'.calls.toList <;> exact .refl _
    rw [unwind, unwind, Machine.setScope, CallStack.setScope, CallStack.toList_modifyTop,
      List.modifyHead_modifyHead]
    exact back
  · have size : (m'.store.newScope (some m'.scope)).1.scopes.size = m'.store.scopes.size + 1 := by
      simp [Store.newScope]
    have grown := hs.withStore (hs.store.newScope hs.scope_lt) (by omega)
    refine (grown.push fun outer ho => ?_).setScope ?_
    · cases ho
      exact grown.scope_lt
    · exact Nat.lt_of_lt_of_eq (Nat.lt_succ_self _) size.symm

lemma hoistFunctions (h : SameScope e m m') {scope : ScopeId}
    (hs : scope < m'.store.scopes.size) (body : List NodeId) :
    SameScope e m { m' with store := m'.store.hoistFunctions e scope body } := by
  refine h.withScoped (.hoistFunctions _ e scope body) fun inOrder => ?_
  obtain ⟨hoisted, size⟩ := inOrder.store.hoistFunctions hs body
  exact inOrder.withStore hoisted (Nat.le_of_eq size.symm)

lemma define (h : SameScope e m m') (scope : ScopeId) (name : String) (v : Value)
    (isMutable : Bool) : SameScope e m (m'.define scope name v isMutable) :=
  h.withStore (.define _ scope name v isMutable)

lemma print (h : SameScope e m m') (line : String) : SameScope e m (m'.print line) :=
  h.trans
    { toFollows :=
        ⟨⟨line ++ "\n", by simp [Machine.print, String.append_assoc]⟩, .refl _, rfl, .inl⟩
      calls := ⟨id, fun _ => rfl, by simp [Machine.print]⟩
      pending := ⟨[], by simp, rfl⟩
      unwound := ⟨[], rfl, .refl _⟩
      wellScoped := fun hs => ⟨hs.store, hs.activations, hs.restores⟩ }

lemma functionValue (h : SameScope e m m') (id : NodeId) (name : Option NodeId)
    (params : List NodeId) {body : NodeId} (hb : e.IsBody body) :
    SameScope e m (m'.functionValue e id name params body) := by
  simp only [Machine.functionValue]
  split
  case h_1 =>
    refine (h.withScoped (.newClosure _ _) fun hs => ?_).goTo _ rfl
    exact hs.withStore (hs.store.newClosure hs.scope_lt hb) (Nat.le_refl _)
  case h_2 name _ =>
    refine (h.withScoped (((Store.Grows.newScope _ _).trans (.newClosure _ _)).trans
      (Store.SameScopes.define _ _ _ _ _).grows) fun hs => ?_).goTo _ rfl
    have size : (m'.store.newScope (some m'.scope)).1.scopes.size = m'.store.scopes.size + 1 := by
      simp [Store.newScope]
    have inner : m'.store.scopes.size < (m'.store.newScope (some m'.scope)).1.scopes.size :=
      Nat.lt_of_lt_of_eq (Nat.lt_succ_self _) size.symm
    have closure := (hs.store.newScope hs.scope_lt).newClosure
      (c := e.closure id (some name) params body m'.store.scopes.size) inner hb
    refine hs.withStore (closure.of_same (.define _ _ _ _ _)) ?_
    rw [(Store.SameScopes.define _ _ _ _ _).size]
    exact Nat.le_of_lt inner

lemma stop?_of_frames? {control : Control} (hc : control.frames? = none) :
    control.stop? = none := by
  cases control with
  | abrupt a => cases a <;> first | rfl | cases hc
  | _ => rfl

lemma frames?_of_isRegular {control : Control} (hc : control.isRegular = true) :
    control.frames? = none := by
  cases control <;> first | rfl | cases hc

/-- What starts from `m` stays in its activation and scope as long as it neither calls a function
of the script nor leaves one. -/
lemma kept (e : Setting) (m : Machine) : KeptByStatements e (fun _ => True) (SameScope e m) where
  setPc := setPc
  goTo := fun h _ hc => h.goTo _ (stop?_of_frames? (frames?_of_isRegular hc))
  throwValue := fun h _ => h.goTo _ rfl
  push := fun h p hp => h.push (by cases p <;> first | rfl | cases hp)
  print := print
  withStore := fun h _ same => h.withStore (.of_sameBindings same)
  assign := fun h _ _ _ v => h.define _ _ v true
  functionValue := fun h id name params body kind =>
    h.functionValue id name params ⟨id, .inr ⟨name, params, kind⟩⟩
  declared := fun _ _ _ _ => trivial
  goToAny := fun h _ hc => h.goTo _ (stop?_of_frames? hc)
  halt := halt
  pushAny := fun h _ hp _ => h.push hp
  define := fun h _ _ v isMutable => h.define _ _ v isMutable
  enterBlock := fun {m'} h body => by
    have fresh : m'.store.scopes.size < (m'.store.newScope (some m'.scope)).1.scopes.size := by
      simp [Store.newScope]
    exact h.newScope.hoistFunctions fresh body

lemma throwFault (h : SameScope e m m') (f : Fault) : SameScope e m (m'.throwFault f) :=
  (kept e m).throwFault h f

lemma runStatements (h : SameScope e m m') (ids : List NodeId) :
    SameScope e m (m'.runStatements ids) := (kept e m).runStatements h ids

lemma runBody (h : SameScope e m m') (body : NodeId) :
    SameScope e m (Machine.runBody e body m') := (kept e m).runBody h body

end SameScope

/-- The function of the script that the next step calls. -/
def called? (m : Machine) : Option Closure :=
  let f := match m.control, m.pending with
    | .call f _ _, _ => some f
    | .value v, p :: _ => constructed? v p
    | _, _ => none
  match f with
  | some (.function ref) => some (m.store.closure ref)
  | _ => none

/-- The entry that the next step resumes. -/
def resumed? (m : Machine) : Option Pending :=
  match m.control with
  | .eval _ | .exec _ | .call .. => none
  | .value _ | .done | .abrupt _ => m.pending.head?

/-- The state with the entry that the next step resumes taken from it. -/
def poised (m : Machine) : Machine :=
  { m with pending := m.pending.drop m.resumed?.toList.length }

/-- The same in the scope that the entry goes back to, if it goes back to one. -/
def passed (m : Machine) : Machine :=
  match m.resumed? with
  | some (.restoreScope outer) => m.poised.setScope outer
  | _ => m.poised

variable {e : Setting} {m : Machine}

lemma pending_of_resumed {p : Pending} (hp : m.resumed? = some p) :
    m.pending = p :: m.poised.pending := by
  obtain ⟨store, calls, output, control, pending⟩ := m
  cases pending <;> cases control <;> simp [resumed?] at hp
  all_goals
    subst hp
    rfl

lemma poised_of_none (h : m.resumed? = none) : m.poised = m := by simp [poised, h]

lemma SameScope.sameActivation {m' : Machine} (h : SameScope e m.passed m') :
    SameActivation e m.poised m' := by
  have returned : SameActivation e m.poised m.passed := by
    rw [passed]
    split
    · exact .modifyTop _ fun _ => rfl
    · exact .refl _
  exact returned.trans h.toSameActivation

/-- A step calls a function of the script, ends an activation or works within one. -/
inductive StepCase (e : Setting) (m : Machine) : Prop
  | call (c : Closure) (args : List Value) (m' : Machine) (called : m.called? = some c)
      (scope : SameScope e m.passed m') (quiet : m'.output = m.output)
      (resumed : ∀ p, m.resumed? = some p → p.isLeave = false)
      (step : m.step e = m'.callClosure e c args)
  | leave (called : m.called? = none) (control : Control)
      (ended : ∀ ps,
        (⟨m.store, m.calls, m.output, control, ps⟩ : Machine).resumed? = ps.head?)
      (resumed : m.resumed? = some .leave)
      (stop : ∀ reason, control.stop? = some reason → m.control.stop? = some reason)
      (step : m.step e = ⟨m.store, m.calls.pop, m.output, control, m.poised.pending⟩)
  | within (called : m.called? = none) (resumed : ∀ p, m.resumed? = some p → p.isLeave = false)
      (scope : SameScope e m.passed (m.step e))

lemma call_cases (store : Store) (calls : CallStack) (output : String) (f : Value)
    (args : List Value) (name : CalleeName) (pending : List Pending) :
    StepCase e ⟨store, calls, output, .call f args name, pending⟩ := by
  have none : ∀ p,
      (⟨store, calls, output, .call f args name, pending⟩ : Machine).resumed? = some p →
      p.isLeave = false := fun p hp => by simp [resumed?] at hp
  have start : SameScope e ⟨store, calls, output, .call f args name, pending⟩
      ⟨store, calls, output, .done, pending⟩ := (SameScope.refl _).goTo .done rfl
  by_cases hf : ∃ ref, f = .function ref
  · obtain ⟨ref, rfl⟩ := hf
    exact .call _ args _ rfl start rfl none rfl
  · have hf : ∀ ref, f ≠ .function ref := fun ref h => hf ⟨ref, h⟩
    refine .within ?_ none ((SameScope.kept e _).call start hf args name)
    cases f <;> first | rfl | exact absurd rfl (hf _)

lemma leave_cases (store : Store) (calls : CallStack) (output : String) (control : Control)
    (pending : List Pending) (hc : (⟨store, calls, output, control, .leave :: pending⟩ :
      Machine).resumed? = some .leave) :
    StepCase e ⟨store, calls, output, control, .leave :: pending⟩ := by
  have value (v : Value) (reason : HaltReason) (hs : (Control.value v).stop? = some reason) :
      control.stop? = some reason := by cases hs
  cases control with
  | eval id => simp [resumed?] at hc
  | exec id => simp [resumed?] at hc
  | call f args name => simp [resumed?] at hc
  | value v => exact .leave rfl (.value v) (fun _ => rfl) rfl (value v) rfl
  | done => exact .leave rfl (.value .undefined) (fun _ => rfl) rfl (value .undefined) rfl
  | abrupt a =>
    cases a with
    | returned v => exact .leave rfl (.value v) (fun _ => rfl) rfl (value v) rfl
    | broken => exact .leave rfl (.value .undefined) (fun _ => rfl) rfl (value .undefined) rfl
    | continued => exact .leave rfl (.value .undefined) (fun _ => rfl) rfl (value .undefined) rfl
    | thrown v frames =>
      exact .leave rfl (.abrupt (.thrown v frames)) (fun _ => rfl) rfl (fun _ hs => hs) rfl
    | halted reason frames =>
      exact .leave rfl (.abrupt (.halted reason frames)) (fun _ => rfl) rfl (fun _ hs => hs) rfl

/-- A construction with a function of the script is a call whose result is looked at. -/
lemma resumeValue_of_constructed {v : Value} {p : Pending} {ref : Ref}
    (hf : constructed? v p = some (.function ref)) (m : Machine) :
    ∃ site args, p.site? = some site ∧ resumeValue e m v p =
      ((m.setPc site.node).push .construct).callClosure e (m.store.closure ref) args := by
  cases p with
  | callee site args =>
    cases args with
    | cons id rest => simp [constructed?] at hf
    | nil =>
      simp only [constructed?, Option.ite_none_right_eq_some, Option.some.injEq] at hf
      obtain ⟨hs, rfl⟩ := hf
      exact ⟨site, [], rfl, by simp only [resumeValue, arguments, hs, if_true]; rfl⟩
  | arguments site f rest done =>
    cases rest with
    | cons id rest => simp [constructed?] at hf
    | nil =>
      simp only [constructed?, Option.ite_none_right_eq_some, Option.some.injEq] at hf
      obtain ⟨hs, rfl⟩ := hf
      exact ⟨site, (v :: done).reverse, rfl,
        by simp only [resumeValue, arguments, hs, if_true]; rfl⟩
  | _ => simp [constructed?] at hf

section Resumed

variable (store : Store) (calls : CallStack) (output : String) {p : Pending}
  (pending : List Pending)

lemma value_cases (v : Value) (hp : p.unwinds = false) :
    StepCase e ⟨store, calls, output, .value v, p :: pending⟩ := by
  have alone : ∀ q, (⟨store, calls, output, .value v, p :: pending⟩ : Machine).resumed? = some q →
      q.isLeave = false := by
    intro q hq
    cases hq
    exact Pending.isLeave_of_unwinds hp
  have start : SameScope e (⟨store, calls, output, .value v, p :: pending⟩ : Machine).passed
      ⟨store, calls, output, .done, pending⟩ := by
    cases p <;> first | exact (SameScope.refl _).goTo .done rfl | cases hp
  by_cases hf : ∃ ref, constructed? v p = some (.function ref)
  · obtain ⟨ref, hf⟩ := hf
    obtain ⟨site, args, -, hstep⟩ := resumeValue_of_constructed (e := e) hf
      ⟨store, calls, output, .done, pending⟩
    refine .call (store.closure ref) args _ ?_ ((start.setPc site.node).push rfl) rfl alone hstep
    simp only [called?, hf]
  · have hf : ∀ ref, constructed? v p ≠ some (.function ref) := fun ref h => hf ⟨ref, h⟩
    refine .within ?_ alone
      ((SameScope.kept e _).resumeValue start v hp (fun _ _ _ _ _ => trivial) hf)
    simp only [called?]

lemma done_cases (hp : p.unwinds = false) :
    StepCase e ⟨store, calls, output, .done, p :: pending⟩ := by
  refine .within rfl (fun q hq => ?_) ((SameScope.kept e _).resumeDone ?_ hp)
  · cases hq
    exact Pending.isLeave_of_unwinds hp
  · cases p <;> first | exact .refl _ | cases hp

lemma abrupt_cases (a : Abrupt) (hp : p.unwinds = false) :
    StepCase e ⟨store, calls, output, .abrupt a, p :: pending⟩ := by
  have stop (hs : (Control.abrupt a).stop? = some .breakpoint) :
      (⟨store, calls, output, .abrupt a, p :: pending⟩ : Machine).passed.control.stop? =
        some .breakpoint ∨ ∃ id, haltsAt e id = true := by
    cases p <;> exact .inl hs
  have start : SameScope e (⟨store, calls, output, .abrupt a, p :: pending⟩ : Machine).passed
      ⟨store, calls, output, .done, pending⟩ := by
    cases p <;> first | exact (SameScope.refl _).goTo .done rfl | cases hp
  refine .within rfl (fun q hq => ?_)
    ((SameScope.kept e _).resumeAbrupt start (start.endsIn _ stop) hp)
  cases hq
  exact Pending.isLeave_of_unwinds hp

/-- Whatever reaches an entry that restores a scope passes on in that scope. -/
lemma restore_cases (outer : ScopeId) (control : Control)
    (hc : (⟨store, calls, output, control, .restoreScope outer :: pending⟩ : Machine).resumed? =
      some (.restoreScope outer)) :
    StepCase e ⟨store, calls, output, control, .restoreScope outer :: pending⟩ := by
  have alone : ∀ q, (⟨store, calls, output, control, .restoreScope outer :: pending⟩ :
      Machine).resumed? = some q → q.isLeave = false := by
    intro q hq
    cases hc.symm.trans hq
    rfl
  cases control with
  | value v => exact .within rfl alone (.refl _)
  | done => exact .within rfl alone (.refl _)
  | abrupt a => exact .within rfl alone (.refl _)
  | _ => cases hc

end Resumed

theorem step_cases (hf : m.isFinal = false) : StepCase e m := by
  obtain ⟨store, calls, output, control, pending⟩ := m
  have start (control : Control) (pending : List Pending) :
      SameScope e ⟨store, calls, output, control, pending⟩
        ⟨store, calls, output, .done, pending⟩ := (SameScope.refl _).goTo .done rfl
  cases control with
  | eval id =>
    exact .within rfl (fun p hp => by simp [resumed?] at hp)
      ((SameScope.kept e _).evalNode (start (.eval id) pending) id)
  | exec id =>
    exact .within rfl (fun p hp => by simp [resumed?] at hp)
      ((SameScope.kept e _).execNode (start (.exec id) pending) id)
  | call f args name => exact call_cases store calls output f args name pending
  | _ =>
    cases pending with
    | nil => simp [isFinal] at hf
    | cons p pending =>
      by_cases hp : p.unwinds = true
      · cases p <;> simp [Pending.unwinds] at hp
        · exact leave_cases store calls output _ pending rfl
        · exact restore_cases store calls output pending _ _ rfl
      have hp : p.unwinds = false := by simpa using hp
      first
        | exact value_cases store calls output pending _ hp
        | exact done_cases store calls output pending hp
        | exact abrupt_cases store calls output pending _ hp

/-- The end of an activation gives a value, unless the script is being stopped. -/
lemma step_of_leave (hp : m.resumed? = some .leave) :
    ∃ control, m.step e = ⟨m.store, m.calls.pop, m.output, control, m.poised.pending⟩ ∧
      ((∃ v, control = .value v) ∨ control = m.control ∧ m.control.frames? ≠ none) := by
  have split := pending_of_resumed hp
  generalize m.poised.pending = ps at split ⊢
  obtain ⟨store, calls, output, control, pending⟩ := m
  obtain rfl : pending = .leave :: ps := split
  cases control with
  | value v => exact ⟨.value v, rfl, .inl ⟨v, rfl⟩⟩
  | done => exact ⟨.value .undefined, rfl, .inl ⟨.undefined, rfl⟩⟩
  | abrupt a =>
    cases a with
    | returned v => exact ⟨.value v, rfl, .inl ⟨v, rfl⟩⟩
    | broken | continued => exact ⟨.value .undefined, rfl, .inl ⟨.undefined, rfl⟩⟩
    | thrown v frames => exact ⟨_, rfl, .inr ⟨rfl, nofun⟩⟩
    | halted reason frames => exact ⟨_, rfl, .inr ⟨rfl, nofun⟩⟩
  | _ => cases hp

/-- Whatever reaches an entry that restores a scope goes on in that scope. -/
lemma step_of_restoreScope {outer : ScopeId} (hp : m.resumed? = some (.restoreScope outer)) :
    m.step e = m.poised.setScope outer := by
  have split := pending_of_resumed hp
  obtain ⟨store, calls, output, control, pending⟩ := m
  cases pending with
  | nil => cases split
  | cons p ps =>
    obtain rfl := (List.cons.inj split).1
    cases control <;> first | rfl | cases hp

/-- A step starts on a node, calls or resumes an entry. What is called is a function of the script
or it is not; a construction with a function of the script is a call of it. -/
theorem step_parts {P : Machine → Prop} (hf : m.isFinal = false)
    (eval : ∀ id, m.control = .eval id → P (evalNode e (m.poised.goTo .done) id))
    (exec : ∀ id, m.control = .exec id → P (execNode e (m.poised.goTo .done) id))
    (call : ∀ f args name, (∀ ref, f ≠ .function ref) →
      P (Machine.call e (m.poised.goTo .done) f args name))
    (function : ∀ ref args name, m.control = .call (.function ref) args name →
      P ((m.poised.goTo .done).callClosure e (m.store.closure ref) args))
    (construction : ∀ ref args node,
      P ((((m.poised.goTo .done).setPc node).push .construct).callClosure e
        (m.store.closure ref) args))
    (value : ∀ v p, m.resumed? = some p → (∀ ref, constructed? v p ≠ some (.function ref)) →
      P (resumeValue e (m.poised.goTo .done) v p))
    (done : ∀ p, m.resumed? = some p → P ((m.poised.goTo .done).resumeDone p))
    (abrupt : ∀ a p, m.control = .abrupt a → m.resumed? = some p →
      P ((m.poised.goTo .done).resumeAbrupt a p)) : P (m.step e) := by
  obtain ⟨store, calls, output, control, pending⟩ := m
  cases control with
  | eval id => exact eval id rfl
  | exec id => exact exec id rfl
  | call f args name =>
    by_cases hf : ∃ ref, f = .function ref
    · obtain ⟨ref, rfl⟩ := hf
      exact function ref args name rfl
    · exact call f args name fun ref h => hf ⟨ref, h⟩
  | value v =>
    cases pending with
    | nil => cases hf
    | cons p ps =>
      by_cases hf : ∃ ref, constructed? v p = some (.function ref)
      · obtain ⟨ref, hf⟩ := hf
        obtain ⟨site, args, -, hstep⟩ := resumeValue_of_constructed (e := e) hf
          ⟨store, calls, output, .done, ps⟩
        exact (congrArg P hstep).mpr (construction ref args site.node)
      · exact value v p rfl fun ref h => hf ⟨ref, h⟩
  | done =>
    cases pending with
    | nil => cases hf
    | cons p ps => exact done p rfl
  | abrupt a =>
    cases pending with
    | nil => cases hf
    | cons p ps => exact abrupt a p rfl rfl

/-- What is kept by the parts of a step and by calls is kept by a step that ends no activation and
leaves no scope. -/
theorem KeptByStatements.step {Bindable : String → Prop} {P : Machine → Prop}
    (k : KeptByStatements e Bindable P) (hf : m.isFinal = false)
    (start : P (m.poised.goTo .done))
    (passes : ∀ a, m.control = .abrupt a → P (m.poised.goTo (.abrupt a)))
    (named : ∀ kind d name rest, m.resumed? = some (.declare kind d name rest) → Bindable name)
    (call : ∀ {m'} ref args, P m' → P (m'.callClosure e (m'.store.closure ref) args))
    (within : ∀ p, m.resumed? = some p → p.unwinds = false) : P (m.step e) := by
  refine step_parts hf (fun id _ => k.evalNode start id) (fun id _ => k.execNode start id)
    (fun f args name hf => k.call start hf args name) (fun ref args _ _ => call ref args start)
    (fun ref args node => call ref args (k.push (k.setPc start node) rfl))
    (fun v p hp hf => ?_) (fun p hp => k.resumeDone start (within p hp))
    fun a p ha hp => k.resumeAbrupt start (passes a ha) (within p hp)
  refine k.resumeValue start v (within p hp) (fun kind d name rest hd => ?_) hf
  exact named kind d name rest (hd ▸ hp)

end Machine

end ScriptDebugger
