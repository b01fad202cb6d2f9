import ScriptDebugger.Proofs.Machine.Balance
import ScriptDebugger.Proofs.Machine.Declared

/-!
# A script stays within its own scopes

In every state of a run the scopes that the machine works in, will come back to
or has captured lie inside the global one, and its store is confined: no script
changes what the global scope binds.
-/

namespace ScriptDebugger

namespace Machine

/-- Every scope that the machine works in or goes back to is an inner one, in a confined store;
so is every scope of the frames of an abrupt end. -/
structure Confined (e : Setting) (m : Machine) : Prop where
  store : m.store.Confined e
  activations : ∀ a ∈ m.calls.toList, m.store.Inner a.scope
  restores : ∀ outer, .restoreScope outer ∈ m.pending → m.store.Inner outer
  declares : ∀ kind d name rest, .declare kind d name rest ∈ m.pending → e.tree.Declares name
  frames : ∀ frames, m.control.frames? = some frames →
    frames.Chained ∧ ∀ f ∈ frames.frames, m.store.Inner f.scope

/-- The same with an activation. -/
structure Engaged (e : Setting) (m : Machine) : Prop extends Confined e m where
  running : m.calls.toList ≠ []

variable {e : Setting} {m : Machine}

lemma scope_of_mem_capture {c : CallStack} {f : Frame} (hf : f ∈ c.capture.frames) :
    ∃ a ∈ c.toList, f.scope = a.scope := by
  obtain ⟨i, hi⟩ := List.getElem?_of_mem hf
  rw [CallStack.getElem?_capture, Option.map_eq_some_iff] at hi
  obtain ⟨a, ha, rfl⟩ := hi
  exact ⟨a, List.mem_of_getElem? ha, rfl⟩

namespace Confined

variable (h : Confined e m)
include h

lemma withStore {s : Store} (hs : s.Confined e) (size : m.store.scopes.size ≤ s.scopes.size) :
    Confined e { m with store := s } where
  store := hs
  activations := fun a ha => (h.activations a ha).mono size
  restores := fun outer ho => (h.restores outer ho).mono size
  declares := h.declares
  frames := fun frames hf =>
    ⟨(h.frames frames hf).1, fun f hm => ((h.frames frames hf).2 f hm).mono size⟩

lemma goTo {control : Control}
    (hc : ∀ frames, control.frames? = some frames → frames = m.calls.capture) :
    (m.goTo control).Confined e where
  store := h.store
  activations := h.activations
  restores := h.restores
  declares := h.declares
  frames := by
    intro frames hf
    obtain rfl := hc frames hf
    refine ⟨m.calls.capture_chained, fun f hm => ?_⟩
    obtain ⟨a, ha, same⟩ := scope_of_mem_capture hm
    rw [same]
    exact h.activations a ha

/-- Without frames, any work may come to hand. -/
lemma goTo_of_none {control : Control} (hc : control.frames? = none) : (m.goTo control).Confined e :=
  h.goTo fun frames hf => by rw [hc] at hf; cases hf

lemma modifyTop {f : Activation → Activation}
    (hf : ∀ a, m.store.Inner a.scope → m.store.Inner (f a).scope) :
    Confined e { m with calls := m.calls.modifyTop f } where
  store := h.store
  activations := by
    intro a ha
    rw [CallStack.toList_modifyTop] at ha
    have activations := h.activations
    cases hc : m.calls.toList with
    | nil => simp [hc] at ha
    | cons b bs =>
      rw [hc] at ha activations
      rcases List.mem_cons.mp ha with rfl | ha
      · exact hf b (activations b List.mem_cons_self)
      · exact activations a (List.mem_cons_of_mem _ ha)
  restores := h.restores
  declares := h.declares
  frames := h.frames

lemma push {p : Pending} (restores : ∀ outer, p = .restoreScope outer → m.store.Inner outer)
    (declares : ∀ kind d name rest, p = .declare kind d name rest → e.tree.Declares name) :
    (m.push p).Confined e where
  store := h.store
  activations := h.activations
  restores := by
    intro outer ho
    rcases List.mem_cons.mp ho with ho | ho
    · exact restores outer ho.symm
    · exact h.restores outer ho
  declares := by
    intro kind d name rest hd
    rcases List.mem_cons.mp hd with hd | hd
    · exact declares kind d name rest hd.symm
    · exact h.declares kind d name rest hd
  frames := h.frames

/-- With fewer entries. -/
lemma dropPending {ps : List Pending} (sub : ps ⊆ m.pending) :
    Confined e { m with pending := ps } :=
  ⟨h.store, h.activations, fun outer ho => h.restores outer (sub ho),
    fun kind d name rest hd => h.declares kind d name rest (sub hd), h.frames⟩

lemma poised : m.poised.Confined e := h.dropPending (List.drop_subset _ _)

lemma pop : Confined e { m with calls := m.calls.pop } where
  store := h.store
  activations := by
    intro a ha
    rw [CallStack.toList_pop] at ha
    exact h.activations a (List.mem_of_mem_tail ha)
  restores := h.restores
  declares := h.declares
  frames := h.frames

end Confined

namespace Engaged

variable (h : Engaged e m)
include h

lemma inner_scope : m.store.Inner m.scope := by
  have running := h.running
  rw [Machine.scope, CallStack.top?_eq_head?]
  cases hc : m.calls.toList with
  | nil => exact absurd hc running
  | cons a as => exact h.activations a (by simp [hc])

lemma withStore {s : Store} (hs : s.Confined e) (size : m.store.scopes.size ≤ s.scopes.size) :
    Engaged e { m with store := s } := ⟨h.toConfined.withStore hs size, h.running⟩

lemma goTo_of_none {control : Control} (hc : control.frames? = none) : (m.goTo control).Engaged e :=
  ⟨h.toConfined.goTo_of_none hc, h.running⟩

lemma modifyTop {f : Activation → Activation}
    (hf : ∀ a, m.store.Inner a.scope → m.store.Inner (f a).scope) :
    Engaged e { m with calls := m.calls.modifyTop f } where
  toConfined := h.toConfined.modifyTop hf
  running := by
    have running := h.running
    rw [CallStack.toList_modifyTop]
    cases hc : m.calls.toList with
    | nil => exact absurd hc running
    | cons a as => exact List.cons_ne_nil _ _

lemma define {scope : ScopeId} (pos : 0 < scope) {name : String} (hn : e.tree.Declares name)
    (v : Value) (isMutable : Bool) : (m.define scope name v isMutable).Engaged e :=
  h.withStore (h.store.define pos hn v isMutable)
    (Nat.le_of_eq (Store.SameScopes.define _ _ _ _ _).size.symm)

lemma functionValue {id : NodeId} {name : Option NodeId} {params : List NodeId} {body : NodeId}
    (kind : e.tree.kind id = .functionExpression name params body) :
    (m.functionValue e id name params body).Engaged e := by
  have isBody : e.IsBody body := ⟨id, .inr ⟨name, params, kind⟩⟩
  have binders : ∀ p ∈ params, p ∈ (e.tree.kind id).binders := fun p hp => by
    rw [kind]
    exact List.mem_append_right _ hp
  have declared : ∀ n ∈ (params.filterMap fun p => (e.tree.kind p).name?), e.tree.Declares n :=
    fun n hn => Tree.declares_of_params binders hn
  have scope := h.inner_scope
  simp only [Machine.functionValue]
  split
  case h_1 =>
    have made := h.store.newClosure (c := e.closure id none params body m.scope) scope.lt_size
      isBody declared
    exact (h.withStore made (Nat.le_refl _)).goTo_of_none rfl
  case h_2 own hown =>
    obtain ⟨n, rfl, hn⟩ := Option.bind_eq_some_iff.mp hown
    have binder : n ∈ (e.tree.kind id).binders := by
      rw [kind]
      exact List.mem_cons_self
    have named : e.tree.Declares own := .of_name? binder hn
    have fresh := h.store.inner_newScope (some m.scope)
    have made := ((h.store.newScope scope.lt_size).newClosure
      (c := e.closure id (some own) params body m.store.scopes.size) fresh.lt_size isBody
      declared).define fresh.pos named (.function m.store.closures.size) false
    refine (h.withStore made ?_).goTo_of_none rfl
    rw [(Store.SameScopes.define _ _ _ _ _).size]
    exact Nat.le_of_lt fresh.lt_size

end Engaged

variable (hw : e.tree.WellFormed)
include hw

lemma Engaged.enterBlock (h : Engaged e m) (body : List NodeId) :
    (m.enterBlock e body).Engaged e := by
  have scope := h.inner_scope
  have fresh := h.store.inner_newScope (some m.scope)
  have hoisted := (h.store.newScope scope.lt_size).hoistFunctions hw fresh body
  have size := ((h.store.newScope scope.lt_size).toScoped.hoistFunctions fresh.lt_size body).2
  have grown := h.withStore hoisted
    (Nat.le_of_lt (Nat.lt_of_lt_of_eq fresh.lt_size size.symm))
  have scope := scope.mono (Nat.le_of_lt (Nat.lt_of_lt_of_eq fresh.lt_size size.symm))
  have pushed : Engaged e (Machine.push _ (.restoreScope m.scope)) :=
    ⟨grown.toConfined.push (fun outer ho => by cases ho; exact scope) nofun, h.running⟩
  exact pushed.modifyTop fun _ _ => fresh.mono (Nat.le_of_eq size.symm)

/-- Work within an activation stays within the scopes of the script. -/
lemma engaged_kept : KeptByStatements e e.tree.Declares (Engaged e) where
  setPc := fun h id => h.modifyTop fun _ ha => ha
  goTo := fun h _ hc => h.goTo_of_none (SameScope.frames?_of_isRegular hc)
  throwValue := fun h _ => ⟨h.toConfined.goTo fun _ hf => (Option.some.inj hf).symm, h.running⟩
  push := fun h p hp =>
    ⟨h.toConfined.push (fun _ ho => by subst ho; cases hp) (fun _ _ _ _ hd => by subst hd; cases hp),
      h.running⟩
  print := fun h _ => ⟨⟨h.store, h.activations, h.restores, h.declares, h.frames⟩, h.running⟩
  withStore := fun h _ same => h.withStore (h.store.of_sameBindings same)
    (Nat.le_of_eq (Store.SameScopes.of_sameBindings same).size.symm)
  assign := fun h _ _ target v =>
    have ⟨pos, declared⟩ := h.store.of_assignTarget target
    h.define pos declared v true
  functionValue := fun h _ _ _ _ kind => h.functionValue kind
  declared := fun _ _ _ hk => hw.declares_declarator hk
  goToAny := fun h _ hc => h.goTo_of_none hc
  halt := fun h _ _ => ⟨h.toConfined.goTo fun _ hf => (Option.some.inj hf).symm, h.running⟩
  pushAny := fun h _ hp hd =>
    ⟨h.toConfined.push (fun _ ho => by subst ho; cases hp) hd, h.running⟩
  define := fun h _ hn v isMutable => h.define h.inner_scope.pos hn v isMutable
  enterBlock := fun h body => h.enterBlock hw body

lemma Confined.enteredStore (h : Confined e m) {c : Closure} (hs : c.scope < m.store.scopes.size)
    (hp : ∀ name ∈ c.params, e.tree.Declares name) (args : List Value) :
    (enteredStore e m.store c args).Confined e ∧
      (enteredStore e m.store c args).Inner m.store.scopes.size := by
  have fresh := h.store.inner_newScope (some c.scope)
  have bound := (h.store.newScope hs).bindParams fresh.pos hp args
  have size := (Store.SameScopes.bindParams (m.store.newScope (some c.scope)).1 m.store.scopes.size
    c.params args).size
  have fresh := fresh.mono (Nat.le_of_eq size.symm)
  have size' := (bound.toScoped.hoist fresh.lt_size (e.tree.blockBody c.body)).2
  exact ⟨bound.hoist hw fresh _, fresh.mono (Nat.le_of_eq size'.symm)⟩

/-- A function that is called starts in a scope of its own, unless there is no room for it. -/
lemma Confined.enterFunction (h : Confined e m) (ref : Ref) (args : List Value)
    {Q : Machine → Prop} {next : Machine → Machine} (hnext : ∀ {m'}, Engaged e m' → Q (next m'))
    (hfull : ∀ {m'}, Confined e m' → m'.calls = m.calls → Q m') :
    Q (m.enterFunction e (m.store.closure ref) args next) := by
  set c := m.store.closure ref
  have hs : c.scope < m.store.scopes.size := (h.store.closure ref).1
  have hp := h.store.params_closure ref
  refine enterFunction_cases c args next (fun calls hcalls => ?_) ?_
  · obtain ⟨store, fresh⟩ := h.enteredStore hw hs hp args
    have grown := h.withStore store (Nat.le_of_lt fresh.lt_size)
    refine hnext ⟨⟨store, fun a ha => ?_, grown.restores, grown.declares, grown.frames⟩, ?_⟩
    · rw [hcalls] at ha
      rcases List.mem_cons.mp ha with rfl | ha
      · exact fresh
      · exact grown.activations a ha
    · rw [hcalls]
      exact List.cons_ne_nil _ _
  · have fresh := h.store.inner_newScope (some c.scope)
    have bound := (h.store.newScope hs).bindParams fresh.pos hp args
    have size := (Store.SameScopes.bindParams (m.store.newScope (some c.scope)).1
      m.store.scopes.size c.params args).size
    have grown := h.withStore bound (Nat.le_of_lt (Nat.lt_of_lt_of_eq fresh.lt_size size.symm))
    have made := grown.withStore
      (grown.store.of_sameBindings (.newError _ Fault.stackExceeded.toError)) (Nat.le_refl _)
    exact hfull (made.goTo fun _ hf => (Option.some.inj hf).symm) rfl

lemma Engaged.callClosure (h : Engaged e m) (ref : Ref) (args : List Value) :
    (m.callClosure e (m.store.closure ref) args).Engaged e := by
  refine h.toConfined.enterFunction hw ref args (fun h' => (engaged_kept hw).runBody ?_ _)
    fun h' same => ⟨h', by rw [same]; exact h.running⟩
  exact ⟨h'.toConfined.push nofun nofun, h'.running⟩

/-- Every step stays within the scopes of the script. -/
theorem Confined.step (h : Confined e m) (running : m.isFinal = false → m.calls.toList ≠ []) :
    (m.step e).Confined e := by
  cases hf : m.isFinal with
  | true => rwa [step_of_isFinal hf]
  | false =>
    have poised : Engaged e m.poised := ⟨h.poised, running hf⟩
    by_cases hr : ∃ p, m.resumed? = some p ∧ p.unwinds = true
    · obtain ⟨p, hp, unwinds⟩ := hr
      cases p with
      | leave =>
        obtain ⟨control, hstep, ended⟩ := step_of_leave (e := e) hp
        rw [hstep]
        rcases ended with ⟨v, rfl⟩ | ⟨rfl, -⟩
        · exact h.poised.pop.goTo_of_none (rfl : (Control.value v).frames? = none)
        · exact h.poised.pop
      | restoreScope outer =>
        rw [step_of_restoreScope hp]
        have mem : .restoreScope outer ∈ m.pending := by
          rw [pending_of_resumed hp]
          exact List.mem_cons_self
        exact h.poised.modifyTop fun _ _ => h.restores outer mem
      | _ => cases unwinds
    · have start := poised.goTo_of_none (rfl : Control.done.frames? = none)
      refine ((engaged_kept hw).step hf start (fun a ha => ?_) (fun kind d name rest hp => ?_)
        (fun ref args h' => h'.callClosure hw ref args) fun p hp => ?_).toConfined
      · have same : m.poised.goTo (.abrupt a) = m.poised := by rw [← ha]; rfl
        rwa [same]
      · refine h.declares kind d name rest ?_
        rw [pending_of_resumed hp]
        exact List.mem_cons_self
      · exact Bool.eq_false_iff.mpr fun unwinds => hr ⟨p, hp, unwinds⟩

end Machine

end ScriptDebugger
