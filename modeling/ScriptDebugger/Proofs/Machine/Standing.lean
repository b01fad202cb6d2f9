import ScriptDebugger.Proofs.Machine.Brought

/-!
# Where statements are executed

A statement comes to hand in the scope of the statement that it is a part of,
or in a new one if that statement opens a scope. So a relation between scopes
and statements that goes over from a statement to its parts (`Setting.Placing`)
holds, in every state of a run, of the statement at hand and of those that wait,
each with the scope it is executed in (`Machine.Standing`).
-/

namespace ScriptDebugger

/-- Scopes and names are only added. -/
structure Store.Extends (s s' : Store) : Prop where
  size : s.scopes.size ≤ s'.scopes.size
  parent : ∀ id < s.scopes.size, (s'.scope id).parent = (s.scope id).parent
  names : ∀ id < s.scopes.size, ∀ name ∈ (s.scope id).names, name ∈ (s'.scope id).names

namespace Store.Extends

lemma refl (s : Store) : s.Extends s := ⟨Nat.le_refl _, fun _ _ => rfl, fun _ _ _ => id⟩

lemma trans {s s' s'' : Store} (h : s.Extends s') (h' : s'.Extends s'') : s.Extends s'' where
  size := Nat.le_trans h.size h'.size
  parent := fun id hid => (h'.parent id (Nat.lt_of_lt_of_le hid h.size)).trans (h.parent id hid)
  names := fun id hid name hn =>
    h'.names id (Nat.lt_of_lt_of_le hid h.size) name (h.names id hid name hn)

lemma of_keeps {s s' : Store} (h : s.Keeps s') : s.Extends s' :=
  ⟨h.size, h.parent, fun id hid _ hn => (h.names id hid).symm ▸ hn⟩

lemma define (s : Store) (scope : ScopeId) (name : String) (v : Value) (isMutable : Bool) :
    s.Extends (s.define scope name v isMutable) where
  size := Nat.le_of_eq (SameScopes.define s scope name v isMutable).size.symm
  parent := fun id _ => scope_define s scope name v isMutable id
  names := fun _ hid x hx => (mem_names_define s scope name v isMutable hid x).mpr (.inl hx)

lemma bindAll (s : Store) (scope : ScopeId) (bs : List Binding) :
    s.Extends (s.bindAll scope bs) where
  size := Nat.le_of_eq (SameScopes.bindAll s scope bs).size.symm
  parent := fun id _ => (SameScopes.bindAll s scope bs).parent id
  names := fun _ hid name hn => (s.mem_names_bindAll scope bs hid name).mpr (.inl hn)

lemma hoistFunctions (s : Store) (e : Setting) (scope : ScopeId) (body : List NodeId) :
    s.Extends (s.hoistFunctions e scope body) :=
  hoistFunctions_kept (fun h _ => h.trans (of_keeps (.newClosure _ _)))
    (fun h _ v => h.trans (define _ scope _ v true)) (refl s) body

end Store.Extends

namespace Setting

/-- The functions that are bound in the scope that a statement opens, if it opens one. -/
def ownScope? (e : Setting) (id : NodeId) : Option (List NodeId) :=
  match e.tree.kind id with
  | .blockStatement body => if e.tree.declaresLexically body then some body else none
  | .forStatement init _ _ _ => if Machine.lexicalInit e init then some [] else none
  | _ => none

/-- A relation that goes over from a statement to its parts, in the scope of the statement or in the
one that it opens, and that holds of what a function runs in its scope, as long as there are the
scopes below `base`. -/
structure Placing (e : Setting) (base : Nat) (R : Store → ScopeId → NodeId → Prop) : Prop where
  mono {s s' : Store} {scope : ScopeId} {id : NodeId} (h : R s scope id) (extends_ : s.Extends s') :
    R s' scope id
  inner {s : Store} {scope : ScopeId} {id c : NodeId} (h : R s scope id)
    (shared : e.ownScope? id = none) (hc : c ∈ (e.tree.kind id).substatements) : R s scope c
  own {s : Store} {scope : ScopeId} {id c : NodeId} {body : List NodeId} (h : R s scope id)
    (old : base ≤ s.scopes.size) (inside : scope < s.scopes.size)
    (opened : e.ownScope? id = some body) (hc : c ∈ (e.tree.kind id).substatements) :
    R ((s.newScope (some scope)).1.hoistFunctions e s.scopes.size body) s.scopes.size c
  function {s : Store} {c : Closure} (old : base ≤ s.scopes.size) (inside : c.scope < s.scopes.size)
    (args : List Value) {id : NodeId} (hid : id ∈ e.tree.blockBody c.body) :
    R (Machine.enteredStore e s c args) s.scopes.size id

end Setting

namespace Machine

variable {e : Setting} {base : Nat} {R : Store → ScopeId → NodeId → Prop} {ps : List Pending}
  {m m' : Machine}

/-- The statement at hand and those that wait above `ps` are related to their scopes. -/
structure Standing (e : Setting) (R : Store → ScopeId → NodeId → Prop) (ps : List Pending)
    (m : Machine) : Prop where
  control : ∀ id, m.control = .exec id → R m.store m.scope id
  pending : ∃ qs, m.pending = qs ++ ps ∧
    WaitIn (fun scope p => p.Stands e.tree (R m.store scope)) m.calls.toList qs

/-- What has come to hand joins what has been waiting. -/
lemma Standing.of_brings {l qs : List Pending} {as : List Activation}
    (brings : m'.Brings e.tree (R m'.store m'.scope) (l ++ (qs ++ ps)))
    (opens : ∀ r ∈ l, r.Stands e.tree fun _ => False)
    (unwinds : m'.Unwinds (qs ++ ps) as)
    (waiting : WaitIn (fun scope p => p.Stands e.tree (R m'.store scope)) as qs) :
    m'.Standing e R ps := by
  obtain ⟨new, hnew, stands⟩ := brings.pending
  obtain ⟨above, habove, same⟩ := unwinds
  obtain rfl : above = new ++ l := by
    rw [hnew, ← List.append_assoc] at habove
    exact (List.append_cancel_right habove).symm
  obtain ⟨first, still⟩ := WaitIn.of_within m'.calls.toList
    (fun scope p => p.Stands e.tree (R m'.store scope)) fun q hq => by
      rw [← scope_eq]
      exact stands q hq
  refine ⟨brings.control, new ++ (l ++ qs), by simp [hnew], first.append ?_⟩
  rw [unwind_append, still] at same
  rw [still]
  exact (WaitIn.of_all fun r hr _ => (opens r hr).mono fun _ none => none.elim).append
    (waiting.of_sameButPc same)

/-- What has come to hand is related to its scope. Between it and `ps` there are at most entries
that go on with no statement. -/
def Comes (e : Setting) (R : Store → ScopeId → NodeId → Prop) (ps : List Pending) (m : Machine) :
    Prop :=
  ∃ l, (∀ r ∈ l, r.Stands e.tree fun _ => False) ∧
    m.Brings e.tree (R m.store m.scope) (l ++ ps)

lemma Comes.of_brings (h : m.Brings e.tree (R m.store m.scope) ps) : m.Comes e R ps :=
  ⟨[], List.forall_mem_nil _, h⟩

lemma Standing.of_comes (h : m.Comes e R ps) : m.Standing e R ps := by
  obtain ⟨l, opens, brings⟩ := h
  obtain ⟨new, hnew, -⟩ := brings.pending
  have waits : WaitIn (fun scope p => p.Stands e.tree (R m.store scope))
    (unwind (new ++ l) m.calls.toList) [] := .nil
  refine .of_brings brings opens ⟨new ++ l, ?_, .refl _⟩ waits
  rw [hnew, List.nil_append, List.append_assoc]

lemma scope_runStatements (m : Machine) (ids : List NodeId) :
    (m.runStatements ids).scope = m.scope := by
  cases ids <;> rfl

lemma comes_runBody (body : NodeId) (hc : m.control.statement? = none)
    (hbody : ∀ id ∈ e.tree.blockBody body, R m.store m.scope id) :
    (runBody e body m).Brings e.tree (R (runBody e body m).store (runBody e body m).scope)
      m.pending := by
  have start (S : NodeId → Prop) : m.Brings e.tree S m.pending :=
    .of_pending hc rfl
  simp only [runBody]
  split
  · exact (start _).goTo rfl
  · refine (start _).runStatements fun id hid => ?_
    rw [store_runStatements, scope_runStatements]
    exact hbody id hid

/-- A function that is called runs its statements in its scope. -/
lemma comes_callClosure (pl : e.Placing base R) (old : base ≤ m.store.scopes.size) {c : Closure}
    (hc : c.scope < m.store.scopes.size) (regular : m.control.statement? = none)
    (args : List Value) :
    (m.callClosure e c args).Comes e R m.pending := by
  refine enterFunction_cases c args _ (fun calls hcalls => ?_) ?_
  · refine ⟨[.leave], List.forall_mem_singleton.mpr trivial, ?_⟩
    refine comes_runBody c.body regular fun id hid => ?_
    rw [scope_eq]
    show R _ (scopeOf calls.toList) id
    rw [hcalls]
    exact pl.function old hc args hid
  · exact .of_brings (Brings.of_pending rfl rfl)

/-- A statement that opens no scope brings its parts in the scope at hand. -/
lemma brings_execNode (hw : e.tree.WellFormed) {id : NodeId} (shared : e.ownScope? id = none)
    (hc : m.control.statement? = none) {S : NodeId → Prop} (hid : S id)
    (parts : ∀ c ∈ (e.tree.kind id).substatements, S c) :
    (execNode e m id).Brings e.tree S m.pending ∧ (execNode e m id).scope = m.scope := by
  have start : (m.setPc id).Brings e.tree S m.pending :=
    .of_pending hc rfl
  have scope := m.scope_setPc id
  simp only [execNode]
  split
  · exact ⟨start.goTo rfl, scope⟩
  · cases hk : e.tree.kind id with
    | variableDeclaration kind ds =>
      exact ⟨start.declare hw hid hk fun _ hd => hd, (store_declare _ kind ds).2.trans scope⟩
    | blockStatement body =>
      have inline : e.tree.declaresLexically body = false := by
        simpa [Setting.ownScope?, hk] using shared
      simp only [runBlock, inline, Bool.false_eq_true, if_false]
      rw [hk] at parts
      exact ⟨start.runStatements parts, (scope_runStatements _ body).trans scope⟩
    | ifStatement test consequent alternate =>
      rw [hk] at parts
      obtain ⟨first, second⟩ := List.forall_mem_cons.mp parts
      exact ⟨start.evalThen test rfl ⟨first, fun id same => second id (by simp [same])⟩, scope⟩
    | forStatement init test update body =>
      have inline : lexicalInit e init = false := by
        simpa [Setting.ownScope?, hk] using shared
      simp only [runFor, inline, Bool.false_eq_true, if_false]
      rw [hk] at parts
      obtain ⟨first, second⟩ := List.forall_mem_append.mp parts
      exact ⟨start.startFor hw (fun id same => first id (by simp [same]))
        (second body List.mem_cons_self), (store_startFor _ init _).2.trans scope⟩
    | whileStatement test body =>
      rw [hk] at parts
      exact ⟨start.evalThen test rfl (parts body List.mem_cons_self), scope⟩
    | returnStatement argument =>
      cases argument with
      | none => exact ⟨start.goTo rfl, scope⟩
      | some argument => exact ⟨start.evalThen argument rfl trivial, scope⟩
    | breakStatement | continueStatement => exact ⟨start.goTo rfl, scope⟩
    | debuggerStatement =>
      simp only
      split
      · exact ⟨start.goTo rfl, scope⟩
      · exact ⟨start.finish, scope⟩
    | functionDeclaration | emptyStatement => exact ⟨start.finish, scope⟩
    | _ => exact ⟨start.evalThen _ rfl trivial, scope⟩

/-- A statement that opens a scope brings its parts in that scope. -/
lemma brings_execNode_own (hw : e.tree.WellFormed) {id : NodeId} {body : List NodeId}
    (opened : e.ownScope? id = some body) (hh : haltsAt e id = false)
    (hc : m.control.statement? = none) {S : NodeId → Prop}
    (parts : ∀ c ∈ (e.tree.kind id).substatements, S c) :
    (execNode e m id).Brings e.tree S (.restoreScope m.scope :: m.pending) ∧
      (execNode e m id).scope = (enterBlock e (m.setPc id) body).scope ∧
      ∃ bs, (execNode e m id).store = (enterBlock e (m.setPc id) body).store.bindAll
        (enterBlock e (m.setPc id) body).scope bs := by
  have start (body : List NodeId) : (enterBlock e (m.setPc id) body).Brings e.tree S
      (.restoreScope m.scope :: m.pending) := by
    refine .of_pending hc ?_
    rw [← m.scope_setPc id]
    rfl
  simp only [execNode, hh, Bool.false_eq_true, if_false]
  simp only [Setting.ownScope?] at opened
  split at opened
  case h_1 statements hk =>
    obtain ⟨declares, same⟩ := Option.ite_none_right_eq_some.mp opened
    obtain rfl : statements = body := Option.some.inj same
    rw [hk] at parts
    simp only [hk, runBlock, declares, if_true]
    exact ⟨(start statements).runStatements parts, scope_runStatements _ _, [],
      store_runStatements _ _⟩
  case h_2 init test update loop hk =>
    obtain ⟨declares, same⟩ := Option.ite_none_right_eq_some.mp opened
    obtain rfl : [] = body := Option.some.inj same
    rw [hk] at parts
    obtain ⟨first, second⟩ := List.forall_mem_append.mp parts
    simp only [hk, runFor, declares, if_true]
    have started := store_startFor (e := e) (enterBlock e (m.setPc id) []) init ⟨test, update, loop⟩
    exact ⟨(start []).startFor hw (fun id same => first id (by simp [same]))
      (second loop List.mem_cons_self), started.2, _, started.1⟩
  case h_3 => cases opened

lemma Rebinds.extends_ (h : m.Rebinds e m') : m.store.Extends m'.store :=
  ⟨h.size, fun _ hid => h.parent hid, fun _ hid name hn => (h.mem_names hid name).mpr (.inl hn)⟩

lemma extends_steps
    (running : ∀ k, (m.steps e k).isFinal = false → (m.steps e k).calls.toList ≠ []) (n : Nat) :
    m.store.Extends (m.steps e n).store := by
  induction n with
  | zero => exact .refl _
  | succ n ih =>
    rw [steps_succ]
    exact ih.trans (rebinds_step (running n)).extends_

/-- Executing a statement brings its parts. -/
lemma comes_exec (pl : e.Placing base R) (hw : e.tree.WellFormed)
    (old : base ≤ m.store.scopes.size) (inside : m.scope < m.store.scopes.size)
    (running : m.calls.toList ≠ []) (hc : m.control.statement? = none) {id : NodeId}
    (placed : R m.store m.scope id) : (execNode e m id).Comes e R m.pending := by
  have rebinds : Rebinds e (m.goTo (.exec id)) (execNode e m id) :=
    rebinds_execNode rfl rfl rfl running
  cases opened : e.ownScope? id with
  | none =>
    have late := pl.mono placed rebinds.extends_
    have brings := brings_execNode hw opened hc late fun c part => pl.inner late opened part
    refine .of_brings ?_
    rw [brings.2]
    exact brings.1
  | some body =>
    by_cases hh : haltsAt e id = true
    · refine .of_brings (.of_pending ?_ ?_) <;> simp only [execNode, hh, if_true] <;> rfl
    have fresh := scope_enterBlock (e := e) running id body
    have hh : haltsAt e id = false := by simpa using hh
    obtain ⟨-, scope, bs, store⟩ := brings_execNode_own (S := fun _ => True) hw opened hh hc
      fun _ _ => trivial
    have parts (c : NodeId) (part : c ∈ (e.tree.kind id).substatements) :
        R (execNode e m id).store m.store.scopes.size c := by
      have own := pl.own placed old inside opened part
      rw [← m.scope_setPc id] at own
      refine pl.mono own ?_
      rw [store]
      exact .bindAll _ _ bs
    refine ⟨[.restoreScope m.scope], List.forall_mem_singleton.mpr trivial, ?_⟩
    rw [scope, fresh]
    exact (brings_execNode_own hw opened hh hc parts).1

/-- Where nothing of what has come to hand changes the call stack, the scope is the one before. -/
lemma Brings.scope_eq {t : Tree} {S : NodeId → Prop} {as : List Activation}
    (brings : m.Brings t S ps) (unwinds : m.Unwinds ps as) : m.scope = scopeOf as := by
  obtain ⟨new, hnew, stands⟩ := brings.pending
  obtain ⟨above, habove, same⟩ := unwinds
  obtain rfl : above = new := List.append_cancel_right (habove.symm.trans hnew)
  have still := (WaitIn.of_within m.calls.toList (fun _ _ => True)
    fun q hq => ⟨(stands q hq).1, trivial⟩).2
  rw [still] at same
  rw [Machine.scope_eq, scopeOf_eq same]

/-- A step that ends no activation leads back to where it has started. -/
lemma unwinds_step (hf : m.isFinal = false) (resumed : m.resumed? ≠ some .leave) :
    (m.step e).Unwinds m.passed.pending m.passed.calls.toList := by
  cases step_cases (e := e) hf with
  | within called _ scope => exact m.passed.unwinds_self.of_sameScope scope
  | call c args m' called scope quiet _ step =>
    rw [step]
    exact (m.passed.unwinds_self.of_sameScope scope).callClosure c args
  | leave called control ended left stop step => exact absurd left resumed

section

variable (pl : e.Placing base R) (hw : e.tree.WellFormed)
include pl hw

/-- Whatever a step comes to is related to its scope. -/
lemma comes_step (old : base ≤ m.store.scopes.size) (hf : m.isFinal = false) (hs : m.Scoped e)
    (running : m.calls.toList ≠ [])
    (placed : ∀ id, m.control = .exec id → R m.store m.scope id)
    (waiting : ∀ p, m.resumed? = some p → p.unwinds = false ∧ p.Stands e.tree (R m.store m.scope)) :
    (m.step e).Comes e R m.poised.pending := by
  have extends_ := (rebinds_step (e := e) fun _ => running).extends_
  have stays (p : Pending) (hp : m.resumed? = some p) : m.passed = m.poised := by
    have := (waiting p hp).1
    cases p <;> first | (cases this; done) | simp only [passed, hp]
  have unwinds : (m.step e).Unwinds m.poised.pending m.calls.toList := by
    have unwinds := unwinds_step (e := e) hf fun left => by cases (waiting _ left).1
    cases hr : m.resumed? with
    | none =>
      have same : m.passed = m.poised := by simp only [passed, hr]
      rwa [same] at unwinds
    | some p => rwa [stays p hr] at unwinds
  -- What a step brings out of an entry has been related to the scope when the entry was pushed.
  have within (brings : ∀ S : NodeId → Prop, (∀ id, R m.store m.scope id → S id) →
      (m.step e).Brings e.tree S m.poised.pending) : (m.step e).Comes e R m.poised.pending := by
    have scope := (brings (fun _ => True) fun _ _ => trivial).scope_eq unwinds
    rw [← m.scope_eq] at scope
    refine .of_brings (brings _ fun id h => ?_)
    rw [scope]
    exact pl.mono h extends_
  obtain ⟨store, calls, output, control, pending⟩ := m
  have start (S : NodeId → Prop) (ps : List Pending) :
      Brings e.tree S ps ⟨store, calls, output, .done, ps⟩ := .of_pending rfl rfl
  cases control with
  | eval id => exact within fun S _ => (Brings.kept (e := e)).evalNode (start S pending) id
  | exec id =>
    exact comes_exec (m := ⟨store, calls, output, .done, pending⟩) pl hw old
      hs.scope_lt running rfl (placed id rfl)
  | call f args name =>
    by_cases hf : ∃ ref, f = .function ref
    · obtain ⟨ref, rfl⟩ := hf
      exact comes_callClosure (m := ⟨store, calls, output, .done, pending⟩) pl old
        (hs.store.closure ref).1 rfl args
    · exact within fun S _ =>
        (Brings.kept (e := e)).call (start S pending) (fun ref h => hf ⟨ref, h⟩) args name
  | value v =>
    cases pending with
    | nil => cases hf
    | cons p ps =>
      obtain ⟨inner, stands⟩ := waiting p rfl
      by_cases hf : ∃ ref, constructed? v p = some (.function ref)
      · obtain ⟨ref, hf⟩ := hf
        obtain ⟨site, args, -, step⟩ := resumeValue_of_constructed (e := e) hf
          ⟨store, calls, output, .done, ps⟩
        obtain ⟨l, opens, brings⟩ := comes_callClosure (R := R) (e := e)
          (m := Machine.push (Machine.setPc ⟨store, calls, output, .done, ps⟩ site.node) .construct)
          pl old (hs.store.closure ref).1 rfl args
        refine ⟨l ++ [.construct], fun r hr => ?_, ?_⟩
        · rcases List.mem_append.mp hr with hr | hr
          · exact opens r hr
          · rw [List.mem_singleton.mp hr]
            trivial
        · show Brings e.tree (R (Machine.resumeValue e _ v p).store
            (Machine.resumeValue e _ v p).scope) _ (Machine.resumeValue e _ v p)
          rw [step, List.append_assoc]
          exact brings
      · exact within fun S imp => (start S ps).resumeValue hw v (stands.mono imp) inner
          fun ref h => hf ⟨ref, h⟩
  | done =>
    cases pending with
    | nil => cases hf
    | cons p ps => exact within fun S imp => (start S ps).resumeDone ((waiting p rfl).2.mono imp)
  | abrupt a =>
    cases pending with
    | nil => cases hf
    | cons p ps =>
      exact within fun S imp => (start S ps).resumeAbrupt a ((waiting p rfl).2.mono imp)

omit pl hw in
/-- An end that reaches an entry which changes the call stack goes on below it. -/
lemma standing_unwound {p : Pending} {rest : List Pending} (hp : m.resumed? = some p)
    (unwinds : p.unwinds = true) (hq : m.poised.pending = rest ++ ps)
    (tail : WaitIn (fun scope q => q.Stands e.tree (R (m.step e).store scope))
      (unwind [p] m.calls.toList) rest) : (m.step e).Standing e R ps := by
  have noStatement (id : NodeId) : m.control ≠ .exec id := by
    intro same
    simp [resumed?, same] at hp
  cases p with
  | leave =>
    obtain ⟨control, step, ended⟩ := step_of_leave (e := e) hp
    rw [step] at tail ⊢
    refine ⟨fun id same => ?_, rest, hq, ?_⟩
    · have same : control = .exec id := same
      rcases ended with ⟨v, rfl⟩ | ⟨rfl, -⟩
      · cases same
      · exact absurd same (noStatement id)
    · show WaitIn _ m.calls.pop.toList rest
      rwa [CallStack.toList_pop]
  | restoreScope outer =>
    rw [step_of_restoreScope hp] at tail ⊢
    refine ⟨fun id same => absurd same (noStatement id), rest, hq, ?_⟩
    show WaitIn _ (m.calls.setScope outer).toList rest
    rwa [CallStack.setScope, CallStack.toList_modifyTop]
  | _ => cases unwinds

omit pl hw in
/-- What is resumed above `ps` goes on in the innermost scope, and the rest waits. -/
lemma Standing.resumed (h : m.Standing e R ps) (busy : ¬ m.BackAt ps) {p : Pending}
    (hp : m.resumed? = some p) : p.Stands e.tree (R m.store m.scope) ∧
      ∃ rest, m.poised.pending = rest ++ ps ∧
        WaitIn (fun scope q => q.Stands e.tree (R m.store scope)) (unwind [p] m.calls.toList)
          rest := by
  obtain ⟨qs, hq, waiting⟩ := h.pending
  cases qs with
  | nil =>
    refine absurd ⟨?_, hq⟩ busy
    cases hc : m.control <;> simp [resumed?, hc] at hp <;> rfl
  | cons q rest =>
    rw [pending_of_resumed hp] at hq
    obtain ⟨rfl, hrest⟩ := List.cons.inj hq
    exact ⟨m.scope_eq ▸ waiting.of_cons.1, rest, hrest, waiting.of_cons.2⟩

/-- Every step above `ps` leaves statements related to their scopes. -/
theorem Standing.step (old : base ≤ m.store.scopes.size) (h : m.Standing e R ps)
    (busy : m.isFinal = false → ¬ m.BackAt ps) (hs : m.Scoped e)
    (running : m.isFinal = false → m.calls.toList ≠ []) : (m.step e).Standing e R ps := by
  cases hf : m.isFinal with
  | true => rwa [step_of_isFinal hf]
  | false =>
    have extends_ := (rebinds_step (e := e) running).extends_
    have later {as : List Activation} {qs : List Pending}
        (waiting : WaitIn (fun scope p => p.Stands e.tree (R m.store scope)) as qs) :
        WaitIn (fun scope p => p.Stands e.tree (R (m.step e).store scope)) as qs :=
      waiting.mono fun scope p stands =>
        stands.mono fun id h => pl.mono h extends_
    -- Without an entry that changes the call stack, the new work is above what has been waiting.
    have onTop {rest : List Pending} (hq : m.poised.pending = rest ++ ps)
        (waiting : ∀ p, m.resumed? = some p →
          p.unwinds = false ∧ p.Stands e.tree (R m.store m.scope))
        (tail : WaitIn (fun scope p => p.Stands e.tree (R (m.step e).store scope))
          m.calls.toList rest) : (m.step e).Standing e R ps := by
      obtain ⟨l, opens, brings⟩ := comes_step pl hw old hf hs (running hf) h.control waiting
      have unwinds := unwinds_step (e := e) hf fun left => by cases (waiting _ left).1
      have passed : m.passed = m.poised := by
        rw [Machine.passed]
        split
        case h_1 outer hr => cases (waiting _ hr).1
        case h_2 => rfl
      rw [passed, hq] at unwinds
      rw [hq] at brings
      exact .of_brings brings opens unwinds tail
    cases hr : m.resumed? with
    | none =>
      obtain ⟨qs, hq, waiting⟩ := h.pending
      refine onTop (by rwa [poised_of_none hr]) (fun p hp => ?_) (later waiting)
      rw [hr] at hp
      cases hp
    | some p =>
      obtain ⟨stands, rest, hrest, waiting⟩ := h.resumed (busy hf) hr
      have tail := later waiting
      by_cases unwinds : p.unwinds = true
      · exact standing_unwound hr unwinds hrest tail
      · have inner : p.unwinds = false := by simpa using unwinds
        rw [unwind_cons inner] at tail
        refine onTop hrest (fun p' hp => ?_) tail
        obtain rfl := Option.some.inj (hr.symm.trans hp)
        exact ⟨inner, stands⟩

/-- Until the entries `ps` are reached, every statement is executed in a scope that it is related
to. -/
theorem Standing.steps (h : m.Standing e R ps) (old : base ≤ m.store.scopes.size) (n : Nat)
    (busy : ∀ k < n, (m.steps e k).isFinal = false → ¬ (m.steps e k).BackAt ps)
    (hs : ∀ k, (m.steps e k).Scoped e)
    (running : ∀ k, (m.steps e k).isFinal = false → (m.steps e k).calls.toList ≠ []) :
    (m.steps e n).Standing e R ps := by
  induction n with
  | zero => exact h
  | succ n ih =>
    have before := ih fun k hk => busy k (Nat.lt_succ_of_lt hk)
    rw [steps_succ]
    exact before.step pl hw (Nat.le_trans old (extends_steps running n).size)
      (busy n (Nat.lt_succ_self n)) (hs n) (running n)

end

/-- What a step binds in the innermost scope is declared by a statement that is executed there. -/
lemma Standing.declares (hw : e.tree.WellFormed) (h : m.Standing e R ps) (busy : ¬ m.BackAt ps)
    (hs : m.Scoped e) (running : m.calls.toList ≠ []) (stays : (m.step e).scope = m.scope)
    {b : Binding} (hb : b ∈ m.declared e) : ∃ v kind ds, R m.store m.scope v ∧
      e.tree.kind v = .variableDeclaration kind ds ∧ kind.isLexical = true ∧
      b.name ∈ e.tree.declaredNames ds := by
  obtain ⟨store, calls, output, control, pending⟩ := m
  cases control with
  | exec id =>
    simp only [declared] at hb
    split at hb
    case isTrue => cases hb
    case isFalse goes =>
      have hh : haltsAt e id = false := by simpa using goes
      split at hb
      case h_1 kind ds hk =>
        obtain ⟨lexical, declares⟩ := declares_of_unvalued hw hb
        exact ⟨id, kind, ds, h.control id rfl, hk, lexical, declares⟩
      case h_2 init test update loop hk =>
        -- A `for` that declares names goes on in a scope of its own.
        have opens : lexicalInit e init = true := by
          cases init with
          | none => cases hb
          | some v =>
            simp only [Tree.unvaluedInit, Option.elim_some] at hb
            split at hb
            case h_1 kind ds hk => simp [lexicalInit, hk, (declares_of_unvalued hw hb).1]
            case h_2 => cases hb
        have own : e.ownScope? id = some [] := by simp only [Setting.ownScope?, hk, opens, if_true]
        obtain ⟨-, scope, -⟩ := brings_execNode_own (S := fun _ => True)
          (m := ⟨store, calls, output, .done, pending⟩) hw own hh rfl fun _ _ => trivial
        rw [scope_enterBlock (m := ⟨store, calls, output, .done, pending⟩) running] at scope
        have stays : (execNode e ⟨store, calls, output, .done, pending⟩ id).scope =
          Machine.scope ⟨store, calls, output, .exec id, pending⟩ := stays
        exact absurd (stays.symm.trans scope) (Nat.ne_of_lt hs.scope_lt)
      case h_3 => cases hb
  | value v =>
    cases pending with
    | nil => cases hb
    | cons p qs =>
      cases p with
      | declare kind d name rest =>
        simp only [declared] at hb
        split at hb
        case isTrue lexical =>
          obtain ⟨⟨v, ds, hv, hk, own, others⟩, -⟩ := h.resumed busy rfl
          refine ⟨v, kind, ds, hv, hk, lexical, ?_⟩
          rcases List.mem_cons.mp hb with rfl | hb
          · exact own
          · obtain ⟨-, d, hd, declares⟩ :=
              (declares_of_unvalued hw hb).imp_right Tree.mem_declaredNames.mp
            exact Tree.mem_declaredNames.mpr ⟨d, others d hd, declares⟩
        case isFalse => cases hb
      | _ => cases hb
  | _ => cases hb

/-- A `var` that a step gives a value to is declared by a statement that is executed in the
innermost scope. -/
lemma Standing.declaresVar (h : m.Standing e R ps) (busy : ¬ m.BackAt ps) {name : String}
    (var : m.varDeclared? = some name) : ∃ v ds, R m.store m.scope v ∧
      e.tree.kind v = .variableDeclaration .varKind ds ∧ name ∈ e.tree.declaredNames ds := by
  obtain ⟨store, calls, output, control, pending⟩ := m
  simp only [varDeclared?] at var
  split at var
  case h_1 =>
    obtain ⟨⟨v, ds, hv, hk, own, -⟩, -⟩ := h.resumed busy rfl
    exact ⟨v, ds, hv, hk, Option.some.inj var ▸ own⟩
  case h_2 => cases var

end Machine

namespace Interpreter

open Machine

variable {i : Interpreter} {low : ScopeId} {t : Tree} {e : Setting}
  {R : Store → ScopeId → NodeId → Prop} {m : Machine}

lemma Starts.standing (starts : i.Starts low e m) (h : i.store.Scoped e) (pl : e.Placing 0 R)
    (program : ∀ scope, scope < i.store.scopes.size → ∀ id ∈ i.body,
      R (i.store.hoist e scope i.body) scope id) : m.Standing e R [] := by
  cases starts with
  | @program scope above inside halt =>
    by_cases room : 0 < i.maxDepth
    · obtain ⟨calls, top, -, start⟩ := i.startProgram_of_room scope halt room
      rw [start]
      refine .of_comes ⟨[.leave], List.forall_mem_singleton.mpr trivial, ?_⟩
      have start (S : NodeId → Prop) : Brings (i.setting halt).tree S [.leave]
          ⟨i.store.hoist (i.setting halt) scope i.body, calls, "", .done, [.leave]⟩ :=
        .of_pending rfl rfl
      refine (start _).runStatements fun id hid => ?_
      rw [store_runStatements, scope_runStatements, scope_eq]
      show R _ (scopeOf calls.toList) id
      rw [top]
      exact program scope inside id hid
    · rw [i.startProgram_of_full scope halt room]
      exact .of_comes (.of_brings (.of_pending rfl rfl))
  | expression above inside id =>
    refine .of_comes ?_
    simp only [startExpression, enter]
    split
    · exact ⟨[.leave], List.forall_mem_singleton.mpr trivial, .of_pending rfl rfl⟩
    · exact .of_brings (.of_pending rfl rfl)
  | function f output =>
    obtain ⟨ref, closure⟩ := exists_closure ⟨i, f, output⟩
    rw [Callable.start, closure]
    refine .of_comes ?_
    refine enterFunction_cases (m := { i.idle with output }) (i.store.closure ref) [] _
      (fun calls top => ?_) (.of_brings (.of_pending rfl rfl))
    refine .of_brings (comes_runBody _ rfl fun id hid => ?_)
    rw [scope_eq]
    show R _ (scopeOf calls.toList) id
    rw [top]
    exact pl.function (Nat.zero_le _) (h.closure ref).1 [] hid

/-- In a run, every statement is executed in a scope that it is related to. -/
theorem Holds.standing_steps (holds : Holds low t i) (hw : t.WellFormed) (starts : i.Starts low e m)
    (pl : e.Placing 0 R)
    (program : ∀ scope, scope < i.store.scopes.size → ∀ id ∈ i.body,
      R (i.store.hoist e scope i.body) scope id) (n : Nat) : (m.steps e n).Standing e R [] := by
  obtain ⟨tree, store⟩ := holds.scoped
  have own := starts.tree_eq.trans tree
  have start := starts.standing (store e own) pl program
  exact start.steps pl (own ▸ hw) (Nat.zero_le _) n
    (fun k _ busy back => by simp [isFinal_iff_backAt.mpr back] at busy)
    (starts.scoped_steps (store e own)) starts.running

end Interpreter

end ScriptDebugger
