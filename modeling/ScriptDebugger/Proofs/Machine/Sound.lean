import ScriptDebugger.Proofs.Machine.Balance
import ScriptDebugger.Proofs.Machine.Place

/-!
# Where a run stands

In every state of a run, what is at hand and what is pending refers to nodes of
the function that the innermost activation executes, or of the function of the
activation that an entry will return to. Every activation but the innermost
stands at the call that it waits for, and so does the innermost while a built-in
calls back. `Sound` puts this together for a state and the functions `os` of its
activations, innermost first; `Sound.step` says that every step keeps it.
-/

namespace ScriptDebugger

open NodeKind

namespace Pending

/-- Whether an entry calls a callback time and again. -/
def isIterate : Pending → Bool
  | forEach .. | map .. | reduce .. => true
  | _ => false

lemma eq_leave {p : Pending} (hp : p.isLeave = true) : p = .leave := by
  cases p <;> first | rfl | simp [isLeave] at hp

/-- Whether an entry neither ends an activation nor calls back. -/
def isPlain (p : Pending) : Bool := !p.isLeave && !p.isIterate

end Pending

/-- A member access within `o`. -/
structure Access.At (e : Setting) (o : NodeId) (a : Access) : Prop where
  site : e.Site o a.node
  key : e.Inside a.key
  computed : a.computed = true → e.Evaluates o a.key
  right : ∀ op right, a.goal = .assign op right → e.Evaluates o right

/-- A call within `o`. -/
structure CallSite.At (e : Setting) (o : NodeId) (s : CallSite) : Prop where
  site : e.Site o s.node
  call : (e.tree.kind s.node).isCall = true
  callee : e.Inside s.callee

/-- The parts of a `for` within `o`. -/
structure ForParts.At (e : Setting) (o : NodeId) (p : ForParts) : Prop where
  test : ∀ id, p.test = some id → e.Evaluates o id
  update : ∀ id, p.update = some id → e.Evaluates o id
  body : e.Executes o p.body

def CalleeName.At (e : Setting) : CalleeName → Prop
  | .source id => e.Inside id
  | .shown _ => True

/-- The nodes that an entry refers to belong to `o`; what it will evaluate has been passed, and
what it will execute is a statement. -/
def Pending.At (e : Setting) (o : NodeId) : Pending → Prop
  | .elements rest _ => ∀ id ∈ rest, e.Evaluates o id
  | .property _ rest _ => ∀ id ∈ rest, e.Passed o id
  | .binaryLeft _ right | .logical _ right => e.Evaluates o right
  | .conditional consequent alternate => e.Evaluates o consequent ∧ e.Evaluates o alternate
  | .assignName node _ _ | .assignMember node _ _ _ | .throwValue node => e.Site o node
  | .accessObject a | .accessKey a _ => a.At e o
  | .callee site args => site.At e o ∧ ∀ id ∈ args, e.Evaluates o id
  | .arguments site _ rest _ => site.At e o ∧ ∀ id ∈ rest, e.Evaluates o id
  | .statements rest => ∀ id ∈ rest, e.Executes o id
  | .ifTest consequent alternate =>
    e.Executes o consequent ∧ ∀ id, alternate = some id → e.Executes o id
  | .whileTest test body | .whileBody test body => e.Evaluates o test ∧ e.Executes o body
  | .forInit p | .forTest p | .forBody p | .forUpdate p => p.At e o
  | .declare _ declarator _ rest => e.Site o declarator ∧ ∀ id ∈ rest, e.Passed o id
  | .unary _ | .binaryRight .. | .construct | .leave | .forEach .. | .map .. | .reduce ..
  | .restoreScope _ | .discard | .returnValue => True

lemma Pending.At.site {e : Setting} {o : NodeId} {p : Pending} {s : CallSite} (h : p.At e o)
    (hs : p.site? = some s) : s.At e o := by
  cases p <;> cases hs <;> exact h.1

/-- Pending work for activations of the functions `os`. An entry that calls back has nothing but
such entries above it within its activation. -/
def PendingAt (e : Setting) : List Pending → List NodeId → Prop
  | [], os => os = []
  | .leave :: ps, os => ∃ o os', os = o :: os' ∧ PendingAt e ps os'
  | p :: ps, os => (∃ o os', os = o :: os' ∧ p.At e o) ∧
      (∀ q, ps.head? = some q → q.isIterate = true → p.isIterate = true) ∧ PendingAt e ps os

lemma pendingAt_cons {e : Setting} {p : Pending} {ps : List Pending} {o : NodeId}
    {os : List NodeId} (hp : p.isLeave = false) :
    PendingAt e (p :: ps) (o :: os) ↔ p.At e o ∧
      (∀ q, ps.head? = some q → q.isIterate = true → p.isIterate = true) ∧
      PendingAt e ps (o :: os) := by
  cases p <;> simp [Pending.isLeave] at hp <;> simp [PendingAt]

namespace Machine

/-- No callback is being waited for by the entry that comes next. -/
def Free (m : Machine) : Prop := ∀ q, m.pending.head? = some q → q.isIterate = false

/-- The innermost activation stands at a call. -/
def AtCall (e : Setting) (m : Machine) : Prop :=
  ∃ a as, m.calls.toList = a :: as ∧ (e.tree.kind a.pc).isCall = true

/-- The innermost activation stands at a node other than the root. -/
def PcInside (e : Setting) (m : Machine) : Prop :=
  ∀ a as, m.calls.toList = a :: as → e.Inside a.pc

/-- Activations of the functions `os`, all but the innermost at a call, and pending work for
them. -/
structure Stacked (e : Setting) (os : List NodeId) (m : Machine) : Prop where
  owners : List.Forall₂ (fun (a : Activation) o => e.tree.owner a.pc = o) m.calls.toList os
  callers : ∀ a ∈ m.calls.toList.tail, (e.tree.kind a.pc).isCall = true
  depth : m.calls.depth ≤ m.calls.maxDepth
  pending : PendingAt e m.pending os

/-- Within an activation of `o`, without a callback to wait for. -/
structure Open (e : Setting) (o : NodeId) (os : List NodeId) (m : Machine) : Prop
    extends Stacked e (o :: os) m where
  free : m.Free

/-- The same with the program counter at a node of the function. -/
structure Working (e : Setting) (o : NodeId) (os : List NodeId) (m : Machine) : Prop
    extends Open e o os m where
  inside : m.PcInside e

/-- Within an activation of `o` that stands at a call. -/
structure Calling (e : Setting) (o : NodeId) (os : List NodeId) (m : Machine) : Prop
    extends Stacked e (o :: os) m where
  atCall : m.AtCall e

/-- What the frames of an abrupt end say when they have just been captured. -/
def CapturedAt (e : Setting) (calls : CallStack) : Abrupt → Prop
  | .thrown _ frames =>
    frames = calls.capture ∧ ∃ a as, calls.toList = a :: as ∧ e.Inside a.pc
  | .halted .breakpoint frames =>
    frames = calls.capture ∧ ∃ a as, calls.toList = a :: as ∧ haltsAt e a.pc = true
  | .halted .debuggerStatement frames =>
    frames = calls.capture ∧
      ∃ a as, calls.toList = a :: as ∧ e.tree.kind a.pc = .debuggerStatement
  | .returned _ | .broken | .continued => True

/-- What is at hand fits the innermost activation; an abrupt end has been captured just now or
is known (`K`). -/
def ControlAt (e : Setting) (K : Abrupt → Prop) (os : List NodeId) (m : Machine) : Prop :=
  match m.control with
  | .eval id => m.Free ∧ ∃ o os', os = o :: os' ∧ e.Evaluates o id
  | .exec id => m.Free ∧ ∃ o os', os = o :: os' ∧ e.Executes o id
  | .call _ _ name => m.AtCall e ∧ name.At e
  | .value _ => (m.Free ∨ m.AtCall e) ∧ m.PcInside e
  | .done => m.Free
  | .abrupt a => (m.Free ∨ m.AtCall e) ∧ (K a ∨ CapturedAt e m.calls a)

/-- A state of a run, with activations of the functions `os`. -/
structure Sound (e : Setting) (K : Abrupt → Prop) (os : List NodeId) (m : Machine) : Prop
    extends Stacked e os m where
  control : ControlAt e K os m

variable {e : Setting} {K : Abrupt → Prop} {o : NodeId} {os : List NodeId} {m : Machine}

namespace Stacked

lemma of_eq {m' : Machine} (h : Stacked e os m) (calls : m'.calls = m.calls)
    (pending : m'.pending = m.pending) : Stacked e os m' where
  owners := by rw [calls]; exact h.owners
  callers := by rw [calls]; exact h.callers
  depth := by rw [calls]; exact h.depth
  pending := by rw [pending]; exact h.pending

lemma modifyTop (h : Stacked e (o :: os) m) (f : Activation → Activation)
    (hf : ∀ a, e.tree.owner a.pc = o → e.tree.owner (f a).pc = o) :
    Stacked e (o :: os) { m with calls := m.calls.modifyTop f } where
  owners := by
    have owners := h.owners
    rw [CallStack.toList_modifyTop]
    cases hc : m.calls.toList with
    | nil => rw [hc] at owners; cases owners
    | cons a as =>
      rw [hc] at owners
      obtain ⟨ha, has⟩ := List.forall₂_cons.mp owners
      exact .cons (hf a ha) has
  callers := by
    rw [CallStack.toList_modifyTop]
    have callers := h.callers
    cases hc : m.calls.toList with
    | nil => simp
    | cons a as =>
      rw [hc] at callers
      exact callers
  depth := by
    have depth := h.depth
    rw [← CallStack.length_toList] at depth ⊢
    rwa [CallStack.toList_modifyTop, List.length_modifyHead]
  pending := h.pending

lemma push (h : Stacked e (o :: os) m) {p : Pending} (hp : p.isLeave = false) (at_ : p.At e o)
    (top : ∀ q, m.pending.head? = some q → q.isIterate = true → p.isIterate = true) :
    Stacked e (o :: os) (m.push p) :=
  ⟨h.owners, h.callers, h.depth, (pendingAt_cons hp).mpr ⟨at_, top, h.pending⟩⟩

lemma exists_top (h : Stacked e (o :: os) m) :
    ∃ a as, m.calls.toList = a :: as ∧ e.tree.owner a.pc = o := by
  have owners := h.owners
  cases hc : m.calls.toList with
  | nil => rw [hc] at owners; cases owners
  | cons a as =>
    rw [hc] at owners
    exact ⟨a, as, rfl, (List.forall₂_cons.mp owners).1⟩

end Stacked

lemma toList_setPc (m : Machine) (id : NodeId) :
    (m.setPc id).calls.toList = m.calls.toList.modifyHead fun a => { a with pc := id } :=
  CallStack.toList_modifyTop _ _

namespace Open

lemma withStore (h : Open e o os m) (s : Store) : Open e o os { m with store := s } :=
  ⟨h.toStacked.of_eq rfl rfl, h.free⟩

lemma define (h : Open e o os m) (scope : ScopeId) (name : String) (v : Value)
    (isMutable : Bool) : Open e o os (m.define scope name v isMutable) := h.withStore _

lemma setScope (h : Open e o os m) (scope : ScopeId) : Open e o os (m.setScope scope) :=
  ⟨h.toStacked.modifyTop _ fun _ ha => ha, h.free⟩

lemma setPc (h : Open e o os m) {id : NodeId} (site : e.Site o id) :
    Working e o os (m.setPc id) where
  toStacked := h.toStacked.modifyTop _ fun _ _ => site.owner
  free := h.free
  inside := by
    intro a as hc
    rw [toList_setPc] at hc
    obtain ⟨b, bs, htop, -⟩ := h.exists_top
    rw [htop] at hc
    cases hc
    exact site.inside

lemma push (h : Open e o os m) {p : Pending} (hp : p.isPlain = true) (at_ : p.At e o) :
    Open e o os (m.push p) := by
  simp only [Pending.isPlain, Bool.and_eq_true, Bool.not_eq_true'] at hp
  refine ⟨h.toStacked.push hp.1 at_ fun q hq hi => ?_, fun q hq => ?_⟩
  · rw [h.free q hq] at hi
    cases hi
  · cases hq
    exact hp.2

lemma eval (h : Open e o os m) {id : NodeId} (he : e.Evaluates o id) :
    Sound e K (o :: os) (m.goTo (.eval id)) :=
  ⟨h.toStacked.of_eq rfl rfl, h.free, o, os, rfl, he⟩

lemma exec (h : Open e o os m) {id : NodeId} (hx : e.Executes o id) :
    Sound e K (o :: os) (m.goTo (.exec id)) :=
  ⟨h.toStacked.of_eq rfl rfl, h.free, o, os, rfl, hx⟩

lemma finish (h : Open e o os m) : Sound e K (o :: os) m.finish :=
  ⟨h.toStacked.of_eq rfl rfl, h.free⟩

lemma abrupt (h : Open e o os m) {a : Abrupt} (ha : K a) :
    Sound e K (o :: os) (m.goTo (.abrupt a)) :=
  ⟨h.toStacked.of_eq rfl rfl, .inl h.free, .inl ha⟩

lemma evalThen (h : Open e o os m) {id : NodeId} (he : e.Evaluates o id) {p : Pending}
    (hp : p.isPlain = true) (at_ : p.At e o) : Sound e K (o :: os) (m.evalThen id p) :=
  (h.push hp at_).eval he

lemma execThen (h : Open e o os m) {id : NodeId} (hx : e.Executes o id) {p : Pending}
    (hp : p.isPlain = true) (at_ : p.At e o) : Sound e K (o :: os) (m.execThen id p) :=
  (h.push hp at_).exec hx

lemma runStatements (h : Open e o os m) {ids : List NodeId} (hx : ∀ id ∈ ids, e.Executes o id) :
    Sound e K (o :: os) (m.runStatements ids) := by
  cases ids with
  | nil => exact h.finish
  | cons id rest =>
    obtain ⟨first, rest⟩ := List.forall_mem_cons.mp hx
    exact h.execThen first rfl rest

lemma testFor (h : Open e o os m) {p : ForParts} (hp : p.At e o) :
    Sound e K (o :: os) (m.testFor p) := by
  simp only [Machine.testFor]
  split
  case h_1 test ht => exact h.evalThen (hp.test test ht) rfl hp
  case h_2 => exact h.execThen hp.body rfl hp

lemma updateFor (h : Open e o os m) {p : ForParts} (hp : p.At e o) :
    Sound e K (o :: os) (m.updateFor p) := by
  simp only [Machine.updateFor]
  split
  case h_1 update hu => exact h.evalThen (hp.update update hu) rfl hp
  case h_2 => exact h.testFor hp

end Open

namespace Working

lemma withStore (h : Working e o os m) (s : Store) : Working e o os { m with store := s } :=
  ⟨h.toOpen.withStore s, h.inside⟩

lemma define (h : Working e o os m) (scope : ScopeId) (name : String) (v : Value)
    (isMutable : Bool) : Working e o os (m.define scope name v isMutable) := h.withStore _

lemma setScope (h : Working e o os m) (scope : ScopeId) : Working e o os (m.setScope scope) where
  toOpen := h.toOpen.setScope scope
  inside := by
    intro a as hc
    rw [Machine.setScope, CallStack.setScope, CallStack.toList_modifyTop] at hc
    obtain ⟨b, bs, htop, -⟩ := h.exists_top
    rw [htop] at hc
    cases hc
    exact h.inside b _ htop

lemma give (h : Working e o os m) (v : Value) : Sound e K (o :: os) (m.give v) :=
  ⟨h.toStacked.of_eq rfl rfl, .inl h.free, h.inside⟩

lemma giveFrom (h : Working e o os m) (f : Store → Store × Value) :
    Sound e K (o :: os) (m.giveFrom f) := (h.withStore _).give _

lemma throwValue (h : Working e o os m) (v : Value) : Sound e K (o :: os) (m.throwValue v) := by
  obtain ⟨a, as, htop, -⟩ := h.exists_top
  exact ⟨h.toStacked.of_eq rfl rfl, .inl h.free, .inr ⟨rfl, a, as, htop, h.inside a as htop⟩⟩

lemma throwFault (h : Working e o os m) (f : Fault) : Sound e K (o :: os) (m.throwFault f) :=
  (h.withStore _).throwValue _

/-- An end without frames. -/
lemma abrupt (h : Working e o os m) {a : Abrupt} (ha : CapturedAt e m.calls a) :
    Sound e K (o :: os) (m.goTo (.abrupt a)) :=
  ⟨h.toStacked.of_eq rfl rfl, .inl h.free, .inr ha⟩

end Working

/-- What is no program and no empty statement stands inside the tree. -/
lemma inside_of_kind (hw : e.tree.WellFormed) {id : Nat}
    (program : ∀ body, e.tree.kind id ≠ .program body)
    (empty : e.tree.kind id ≠ .emptyStatement) : e.Inside id := by
  rcases Nat.lt_trichotomy (id + 1) e.tree.size with hid | hid | hid
  · exact hid
  · obtain ⟨body, hbody⟩ := hw.program
    have last : e.tree.size - 1 = id := by omega
    rw [last] at hbody
    exact absurd hbody (program body)
  · exact absurd (Tree.kind_of_size_le (by omega)) empty

lemma inside_of_isCall (hw : e.tree.WellFormed) {id : Nat}
    (hk : (e.tree.kind id).isCall = true) : e.Inside id :=
  inside_of_kind hw (fun body hb => by simp [hb, NodeKind.isCall] at hk)
    fun he => by simp [he, NodeKind.isCall] at hk

lemma inside_of_debugger (hw : e.tree.WellFormed) {id : Nat}
    (hk : e.tree.kind id = .debuggerStatement) : e.Inside id :=
  inside_of_kind hw (fun body hb => by simp [hb] at hk) fun he => by simp [he] at hk

namespace Calling

variable (hw : e.tree.WellFormed)
include hw

lemma pcInside (h : Calling e o os m) : m.PcInside e := by
  intro a as hc
  obtain ⟨b, bs, htop, hcall⟩ := h.atCall
  rw [hc] at htop
  cases htop
  exact inside_of_isCall hw hcall

lemma give (h : Calling e o os m) (v : Value) : Sound e K (o :: os) (m.give v) := by
  have inside := h.pcInside hw
  exact ⟨h.toStacked.of_eq rfl rfl, .inr h.atCall, inside⟩

omit hw in
lemma withStore (h : Calling e o os m) (s : Store) : Calling e o os { m with store := s } :=
  ⟨h.toStacked.of_eq rfl rfl, h.atCall⟩

lemma giveFrom (h : Calling e o os m) (f : Store → Store × Value) :
    Sound e K (o :: os) (m.giveFrom f) := (h.withStore _).give hw _

lemma throwFault (h : Calling e o os m) (f : Fault) : Sound e K (o :: os) (m.throwFault f) := by
  obtain ⟨a, as, htop, hcall⟩ := h.atCall
  exact ⟨h.toStacked.of_eq rfl rfl, .inr ⟨a, as, htop, hcall⟩,
    .inr ⟨rfl, a, as, htop, inside_of_isCall hw hcall⟩⟩

omit hw in
lemma print (h : Calling e o os m) (line : String) : Calling e o os (m.print line) :=
  ⟨h.toStacked.of_eq rfl rfl, h.atCall⟩

omit hw in
lemma callBack (h : Calling e o os m) (array : Ref) (callback : Value) (index : Nat)
    (before : List Value) {p : Pending} (hp : p.isIterate = true) {ending : Machine → Machine}
    (hending : Sound e K (o :: os) (ending m)) :
    Sound e K (o :: os) (m.callBack array callback index before p ending) := by
  simp only [Machine.callBack]
  split
  · have leave : p.isLeave = false := by cases p <;> first | rfl | cases hp
    have at_ : p.At e o := by cases p <;> trivial
    have pushed := h.toStacked.push leave at_ fun _ _ _ => hp
    exact ⟨pushed.of_eq rfl rfl, h.atCall, trivial⟩
  · exact hending

lemma forEachFrom (h : Calling e o os m) (array : Ref) (callback : Value) (index : Nat) :
    Sound e K (o :: os) (m.forEachFrom array callback index) :=
  h.callBack array callback index [] rfl (h.give hw .undefined)

lemma mapFrom (h : Calling e o os m) (array : Ref) (callback : Value) (index : Nat)
    (done : List Value) : Sound e K (o :: os) (m.mapFrom array callback index done) :=
  h.callBack array callback index [] rfl (h.giveFrom hw _)

lemma reduceFrom (h : Calling e o os m) (array : Ref) (callback : Value) (index : Nat)
    (acc : Value) : Sound e K (o :: os) (m.reduceFrom array callback index acc) :=
  h.callBack array callback index [acc] rfl (h.give hw acc)

lemma iterate (h : Calling e o os m) (method : ArrayMethod) (array : Ref) (args : List Value) :
    Sound e K (o :: os) (m.iterate method array args) := by
  cases method with
  | forEach => exact h.forEachFrom hw array _ 0
  | map => exact h.mapFrom hw array _ 0 []
  | reduce =>
    simp only [Machine.iterate]
    split
    · exact h.reduceFrom hw array _ 0 _
    · split
      · exact h.reduceFrom hw array _ 1 _
      · exact h.throwFault hw _
  | _ => exact h.give hw _

lemma callBuiltin (h : Calling e o os m) (b : BoundBuiltin) (args : List Value) :
    Sound e K (o :: os) (m.callBuiltin b args) := by
  obtain ⟨builtin, receiver⟩ := b
  cases builtin with
  | log => exact (h.print _).give hw _
  | construct kind =>
    simp only [Machine.callBuiltin]
    exact h.giveFrom hw _
  | array method =>
    simp only [Machine.callBuiltin]
    split
    · split
      · exact h.iterate hw method _ args
      · exact h.giveFrom hw _
    · exact h.throwFault hw _
  | string method =>
    simp only [Machine.callBuiltin]
    split
    · exact h.give hw _
    · exact h.throwFault hw _
  | _ => exact h.give hw _

omit hw in
lemma exists_room (h : Calling e o os m) (room : m.calls.depth < m.calls.maxDepth)
    {calls : CallStack} {a : Activation} (hcalls : calls.toList = a :: m.calls.toList)
    (hmax : calls.maxDepth = m.calls.maxDepth) (s : Store) :
    Open e (e.tree.owner a.pc) (o :: os)
      ⟨s, calls, m.output, m.control, .leave :: m.pending⟩ where
  owners := by
    rw [hcalls]
    exact .cons rfl h.owners
  callers := by
    rw [hcalls]
    obtain ⟨b, bs, htop, hcall⟩ := h.atCall
    have callers := h.callers
    rw [htop] at callers ⊢
    exact List.forall_mem_cons.mpr ⟨hcall, callers⟩
  depth := by
    rw [hmax, ← CallStack.length_toList, hcalls, List.length_cons, CallStack.length_toList]
    exact room
  pending := ⟨_, _, rfl, h.pending⟩
  free := by
    intro q hq
    cases hq
    rfl

lemma callClosure (h : Calling e o os m) (c : Closure) (args : List Value) :
    Sound e K (if m.calls.depth < m.calls.maxDepth then e.tree.owner c.body :: o :: os else o :: os)
      (m.callClosure e c args) := by
  by_cases room : m.calls.depth < m.calls.maxDepth
  · obtain ⟨calls, hcalls, hmax, hbody⟩ := callClosure_of_room (e := e) c args room
    have entered := h.exists_room room hcalls hmax (enteredStore e m.store c args)
    rw [hbody, if_pos room, runBody]
    split
    case isTrue hh =>
      exact ⟨entered.toStacked.of_eq rfl rfl, .inl entered.free, .inr ⟨rfl, _, _, hcalls, hh⟩⟩
    case isFalse =>
      exact entered.runStatements (Setting.executes_blockBody hw c.body)
  · obtain ⟨s, hs, hthrow⟩ := callClosure_of_full (e := e) c args room
    rw [hthrow, if_neg room]
    exact (h.withStore s).throwFault hw _

end Calling

namespace Working

lemma readName (h : Working e o os m) (name : String) {next : Machine → Value → Machine}
    (hnext : ∀ v, Sound e K (o :: os) (next m v)) :
    Sound e K (o :: os) (m.readName name next) := by
  simp only [Machine.readName]
  split
  · exact hnext _
  · exact h.throwFault _

lemma writeName (h : Working e o os m) (name : String) (v result : Value) :
    Sound e K (o :: os) (m.writeName name v result) := by
  rw [Machine.writeName_eq]
  split
  · exact (h.define _ name v true).give result
  · exact h.throwFault _
  · exact h.throwFault _

lemma readMember (h : Working e o os m) (receiver : Value) (key : String)
    {next : Machine → Value → Machine}
    (hnext : ∀ {m' v}, Working e o os m' → Sound e K (o :: os) (next m' v)) :
    Sound e K (o :: os) (m.readMember receiver key next) := by
  simp only [Machine.readMember]
  split
  · exact hnext h
  · exact hnext (h.withStore _)
  · exact h.throwFault _

lemma writeMember (h : Working e o os m) (receiver : Value) (key : String) (v result : Value) :
    Sound e K (o :: os) (m.writeMember receiver key v result) := by
  simp only [Machine.writeMember]
  split
  · exact h.throwFault _
  · exact (h.withStore _).give result

lemma access (h : Working e o os m) {a : Access} (ha : a.At e o) (receiver : Value)
    (key : String) : Sound e K (o :: os) (m.access a receiver key) := by
  simp only [Machine.access]
  split
  case h_1 => exact (h.setPc ha.site).readMember receiver key fun h => h.give _
  case h_2 right hgoal => exact h.evalThen (ha.right _ right hgoal) rfl ha.site
  case h_3 op right hgoal =>
    exact (h.setPc ha.site).readMember receiver key fun h =>
      h.evalThen (ha.right _ right hgoal) rfl ha.site
  case h_4 =>
    exact (h.setPc ha.site).readMember receiver key fun h => h.writeMember receiver key _ _

variable (hw : e.tree.WellFormed)
include hw

lemma properties (h : Working e o os m) (done : Record) {ps : List NodeId}
    (hps : ∀ p ∈ ps, e.Passed o p) : Sound e K (o :: os) (m.properties e done ps) := by
  induction ps with
  | nil =>
    simp only [Machine.properties]
    exact h.giveFrom _
  | cons p rest ih =>
    obtain ⟨hp, hrest⟩ := List.forall_mem_cons.mp hps
    simp only [Machine.properties]
    split
    case h_1 key value hk =>
      have parts := hp.parts hw (by simp [hk, NodeKind.isFunction])
      simp only [Tree.children, hk, NodeKind.roles, NodeKind.children, List.forall₂_cons] at parts
      exact h.evalThen parts.1.evaluates rfl hrest
    case h_2 => exact ih hrest

omit hw in
lemma elements (h : Working e o os m) (done : List Value) {ids : List NodeId}
    (hids : ∀ id ∈ ids, e.Evaluates o id) : Sound e K (o :: os) (m.elements done ids) := by
  cases ids with
  | nil =>
    simp only [Machine.elements]
    exact h.giveFrom _
  | cons id rest =>
    obtain ⟨hid, hrest⟩ := List.forall_mem_cons.mp hids
    exact h.evalThen hid rfl hrest

omit hw in
lemma functionValue (h : Working e o os m) (id : NodeId) (name : Option NodeId)
    (params : List NodeId) (body : NodeId) :
    Sound e K (o :: os) (m.functionValue e id name params body) := by
  simp only [Machine.functionValue]
  split <;> exact h.giveFrom _

lemma assignment (h : Working e o os m) {id : NodeId} (hid : e.Passed o id) {op : AssignOp}
    {left right : NodeId} (hk : e.tree.kind id = .assignmentExpression op left right) :
    Sound e K (o :: os) (m.assignment e id op left right) := by
  have parts := hid.parts hw (by simp [hk, NodeKind.isFunction])
  simp only [Tree.children, hk, NodeKind.roles, NodeKind.children, List.forall₂_cons] at parts
  obtain ⟨hleft, hright, -⟩ := parts
  have hright := hright.evaluates
  simp only [Machine.assignment]
  split
  case h_1 name _ =>
    cases op with
    | assign => exact h.evalThen hright rfl hid.toSite
    | compound op => exact h.readName _ fun v => h.evalThen hright rfl hid.toSite
  case h_2 object key computed hmember =>
    obtain ⟨hobject, hkey, hcomputed⟩ := hleft.evaluates.member hw hmember
    refine h.evalThen hobject rfl ⟨hid.toSite, hkey, hcomputed, fun op' right' hgoal => ?_⟩
    cases hgoal
    exact hright
  case h_3 => exact h.eval hright

lemma update (h : Working e o os m) {id : NodeId} (hid : e.Passed o id) {op : UpdateOp}
    {before : Bool} {argument : NodeId}
    (hk : e.tree.kind id = .updateExpression op before argument) :
    Sound e K (o :: os) (m.update e id op before argument) := by
  have parts := hid.parts hw (by simp [hk, NodeKind.isFunction])
  simp only [Tree.children, hk, NodeKind.roles, NodeKind.children, List.forall₂_cons] at parts
  have hargument := parts.1.evaluates
  simp only [Machine.update]
  split
  case h_1 name _ => exact h.readName name fun v => h.writeName name _ _
  case h_2 object key computed hmember =>
    obtain ⟨hobject, hkey, hcomputed⟩ := hargument.member hw hmember
    refine h.evalThen hobject rfl ⟨hid.toSite, hkey, hcomputed, fun op' right' hgoal => ?_⟩
    cases hgoal
  case h_3 => exact h.give _

end Working

/-- An expression that may be evaluated is, within its activation. -/
lemma Open.evalNode (hw : e.tree.WellFormed) (h : Open e o os m) {id : NodeId}
    (hid : e.Evaluates o id) : Sound e K (o :: os) (Machine.evalNode e m id) := by
  have working := h.setPc hid.toSite
  have parts (hf : (e.tree.kind id).isFunction = false) := hid.parts hw hf
  simp only [Machine.evalNode]
  cases hk : e.tree.kind id with
  | identifier name => exact working.readName name fun v => working.give v
  | literal l => exact working.give _
  | functionExpression name params body => exact working.functionValue id name params body
  | updateExpression op before argument => exact working.update hw hid.toPassed hk
  | assignmentExpression op left right => exact working.assignment hw hid.toPassed hk
  | memberExpression object key computed =>
    obtain ⟨hobject, hkey, hcomputed⟩ := hid.member hw hk
    refine working.evalThen hobject rfl ⟨hid.toSite, hkey, hcomputed, fun op right hgoal => ?_⟩
    cases hgoal
  | arrayExpression ids =>
    have parts := parts (by rw [hk]; rfl)
    simp only [Tree.children, hk, NodeKind.roles, NodeKind.children, forall₂_replicate] at parts
    exact working.elements [] fun c hc => (parts c hc).evaluates
  | objectExpression ps =>
    have parts := parts (by rw [hk]; rfl)
    simp only [Tree.children, hk, NodeKind.roles, NodeKind.children, forall₂_replicate] at parts
    exact working.properties hw .empty fun c hc => (parts c hc).2
  | unaryExpression op argument =>
    have parts := parts (by rw [hk]; rfl)
    simp only [Tree.children, hk, NodeKind.roles, NodeKind.children, List.forall₂_cons] at parts
    dsimp only
    split
    · exact working.give _
    · exact working.evalThen parts.1.evaluates rfl trivial
  | binaryExpression op left right =>
    have parts := parts (by rw [hk]; rfl)
    simp only [Tree.children, hk, NodeKind.roles, NodeKind.children, List.forall₂_cons] at parts
    exact working.evalThen parts.1.evaluates rfl parts.2.1.evaluates
  | logicalExpression op left right =>
    have parts := parts (by rw [hk]; rfl)
    simp only [Tree.children, hk, NodeKind.roles, NodeKind.children, List.forall₂_cons] at parts
    exact working.evalThen parts.1.evaluates rfl parts.2.1.evaluates
  | conditionalExpression test consequent alternate =>
    have parts := parts (by rw [hk]; rfl)
    simp only [Tree.children, hk, NodeKind.roles, NodeKind.children, List.forall₂_cons] at parts
    exact working.evalThen parts.1.evaluates rfl ⟨parts.2.1.evaluates, parts.2.2.1.evaluates⟩
  | callExpression callee args =>
    have parts := parts (by rw [hk]; rfl)
    simp only [Tree.children, hk, NodeKind.roles, NodeKind.children, List.forall₂_cons,
      forall₂_replicate] at parts
    obtain ⟨hcallee, hargs⟩ := parts
    exact working.evalThen hcallee.evaluates rfl
      ⟨⟨hid.toSite, by rw [hk]; rfl, hcallee.evaluates.inside⟩, fun c hc => (hargs c hc).evaluates⟩
  | newExpression callee args =>
    have parts := parts (by rw [hk]; rfl)
    simp only [Tree.children, hk, NodeKind.roles, NodeKind.children, List.forall₂_cons,
      forall₂_replicate] at parts
    obtain ⟨hcallee, hargs⟩ := parts
    exact working.evalThen hcallee.evaluates rfl
      ⟨⟨hid.toSite, by rw [hk]; rfl, hcallee.evaluates.inside⟩, fun c hc => (hargs c hc).evaluates⟩
  | _ => exact working.give _

namespace Open

variable (hw : e.tree.WellFormed)
include hw

lemma declare (h : Open e o os m) (kind : VarKind) {ds : List NodeId}
    (hds : ∀ d ∈ ds, e.Passed o d) : Sound e K (o :: os) (m.declare e kind ds) := by
  induction ds generalizing m with
  | nil => exact h.finish
  | cons d rest ih =>
    obtain ⟨hd, hrest⟩ := List.forall_mem_cons.mp hds
    simp only [Machine.declare]
    split
    case h_1 nameId init hk =>
      split
      case h_1 value =>
        have parts := hd.parts hw (by simp [hk, NodeKind.isFunction])
        simp only [Tree.children, hk, NodeKind.roles, NodeKind.children, Option.toList_some,
          List.map_cons, List.map_nil, List.forall₂_cons] at parts
        exact h.evalThen parts.2.1.evaluates rfl ⟨hd.toSite, hrest⟩
      case h_2 =>
        split
        · exact ih (h.define _ _ _ _) hrest
        · exact ih h hrest
    case h_2 => exact ih h hrest

omit hw in
lemma bindDeclared (h : Open e o os m) (kind : VarKind) {declarator : NodeId}
    (hd : e.Site o declarator) (name : String) (v : Value) :
    Open e o os (m.bindDeclared kind declarator name v) := by
  rw [Machine.bindDeclared_eq]
  split
  · exact h.define _ _ _ _
  · split <;> exact ((h.setPc hd).define _ _ _ _).toOpen

omit hw in
lemma runBlock (h : Open e o os m) {body : List NodeId} (hbody : ∀ id ∈ body, e.Executes o id) :
    Sound e K (o :: os) (m.runBlock e body) := by
  simp only [Machine.runBlock]
  split
  · exact (((h.withStore _).push (p := .restoreScope _) rfl trivial).setScope _).runStatements hbody
  · exact h.runStatements hbody

lemma startFor (h : Open e o os m) {init : Option NodeId}
    (hinit : ∀ id, init = some id → e.Part o .forInit id) {p : ForParts} (hp : p.At e o) :
    Sound e K (o :: os) (m.startFor e init p) := by
  simp only [Machine.startFor]
  split
  case h_1 => exact h.testFor hp
  case h_2 id =>
    obtain ⟨admits, hid⟩ := hinit id rfl
    have hid : e.Passed o id := hid
    split
    case h_1 kind declarators hk =>
      have parts := hid.parts hw (by simp [hk, NodeKind.isFunction])
      simp only [Tree.children, hk, NodeKind.roles, NodeKind.children, forall₂_replicate] at parts
      exact ((h.setPc hid.toSite).push (p := .forInit p) rfl hp).declare hw kind
        fun d hd => (parts d hd).2
    case h_2 hk =>
      refine h.evalThen ⟨hid, ?_⟩ rfl hp
      cases hkind : e.tree.kind id <;> rw [hkind] at admits <;>
        first | rfl | exact absurd hkind (hk _ _) | cases admits

lemma runFor (h : Open e o os m) {init : Option NodeId}
    (hinit : ∀ id, init = some id → e.Part o .forInit id) {p : ForParts} (hp : p.At e o) :
    Sound e K (o :: os) (m.runFor e init p) := by
  simp only [Machine.runFor]
  split
  · exact (((h.withStore _).push (p := .restoreScope _) rfl trivial).setScope _).startFor hw
      hinit hp
  · exact h.startFor hw hinit hp

end Open

/-- A statement is executed within its activation, unless the run halts before it. -/
lemma Open.execNode (hw : e.tree.WellFormed) (h : Open e o os m) {id : NodeId}
    (hid : e.Executes o id) : Sound e K (o :: os) (Machine.execNode e m id) := by
  have working := h.setPc hid.toSite
  obtain ⟨a, as, htop, -⟩ := h.exists_top
  have top : (m.setPc id).calls.toList = { a with pc := id } :: as := by
    rw [toList_setPc, htop, List.modifyHead_cons]
  simp only [Machine.execNode]
  split
  case isTrue hh => exact working.abrupt ⟨rfl, _, _, top, hh⟩
  case isFalse hh =>
    have passed := hid.passed hw (by simpa using hh)
    have parts (hf : (e.tree.kind id).isFunction = false) := passed.parts hw hf
    cases hk : e.tree.kind id with
    | variableDeclaration kind declarators =>
      have parts := parts (by rw [hk]; rfl)
      simp only [Tree.children, hk, NodeKind.roles, NodeKind.children, forall₂_replicate] at parts
      exact working.declare hw kind fun d hd => (parts d hd).2
    | blockStatement body =>
      have parts := parts (by rw [hk]; rfl)
      simp only [Tree.children, hk, NodeKind.roles, NodeKind.children, forall₂_replicate] at parts
      exact working.runBlock fun c hc => (parts c hc).executes
    | forStatement init test update body =>
      obtain ⟨hinit, htest, hupdate, hbody⟩ := passed.forStatement hw hk
      exact working.runFor hw hinit ⟨htest, hupdate, hbody⟩
    | expressionStatement expression =>
      have parts := parts (by rw [hk]; rfl)
      simp only [Tree.children, hk, NodeKind.roles, NodeKind.children, List.forall₂_cons] at parts
      exact working.evalThen parts.1.evaluates rfl trivial
    | ifStatement test consequent alternate =>
      have parts := parts (by rw [hk]; rfl)
      simp only [Tree.children, hk, NodeKind.roles, NodeKind.children, List.forall₂_cons,
        forall₂_option] at parts
      obtain ⟨htest, hconsequent, halternate⟩ := parts
      exact working.evalThen htest.evaluates rfl
        ⟨hconsequent.executes, fun c hc => (halternate c hc).executes⟩
    | whileStatement test body =>
      have parts := parts (by rw [hk]; rfl)
      simp only [Tree.children, hk, NodeKind.roles, NodeKind.children, List.forall₂_cons] at parts
      exact working.evalThen parts.1.evaluates rfl ⟨parts.1.evaluates, parts.2.1.executes⟩
    | returnStatement argument =>
      cases argument with
      | none => exact working.abrupt trivial
      | some argument =>
        have parts := parts (by rw [hk]; rfl)
        simp only [Tree.children, hk, NodeKind.roles, NodeKind.children, forall₂_option] at parts
        exact working.evalThen (parts argument rfl).evaluates rfl trivial
    | throwStatement argument =>
      have parts := parts (by rw [hk]; rfl)
      simp only [Tree.children, hk, NodeKind.roles, NodeKind.children, List.forall₂_cons] at parts
      exact working.evalThen parts.1.evaluates rfl hid.toSite
    | breakStatement => exact working.abrupt trivial
    | continueStatement => exact working.abrupt trivial
    | debuggerStatement =>
      dsimp only
      split
      · exact working.abrupt ⟨rfl, _, _, top, hk⟩
      · exact working.finish
    | functionDeclaration name params body => exact working.finish
    | emptyStatement => exact working.finish
    | _ =>
      have statement := hid.statement
      rw [Tree.isStatement, hk] at statement
      cases statement

lemma Open.setPc_call (h : Open e o os m) {site : CallSite} (hs : site.At e o) :
    Calling e o os (m.setPc site.node) := by
  obtain ⟨a, as, htop, -⟩ := h.exists_top
  refine ⟨(h.setPc hs.site).toStacked, { a with pc := site.node }, as, ?_, hs.call⟩
  rw [toList_setPc, htop, List.modifyHead_cons]

namespace Working

variable (hw : e.tree.WellFormed)
include hw

lemma construct (h : Working e o os m) {site : CallSite} (hs : site.At e o) {f : Value}
    (hf : ∀ ref, f ≠ .function ref) (args : List Value) :
    Sound e K (o :: os) ((m.setPc site.node).construct e f args site.callee) := by
  simp only [Machine.construct]
  split
  case h_1 ref => exact absurd rfl (hf ref)
  case h_2 ref =>
    split
    · exact (h.setPc_call hs).callBuiltin hw _ args
    · exact (h.setPc hs.site).throwFault _
  case h_3 => exact (h.setPc hs.site).throwFault _

lemma arguments (h : Working e o os m) {site : CallSite} (hs : site.At e o) (f : Value)
    (done : List Value) {ids : List NodeId} (hids : ∀ id ∈ ids, e.Evaluates o id)
    (hf : ids = [] → site.constructs = true → ∀ ref, f ≠ .function ref) :
    Sound e K (o :: os) (m.arguments e site f done ids) := by
  cases ids with
  | nil =>
    simp only [Machine.arguments]
    split
    case isTrue hc => exact h.construct hw hs (hf rfl hc) _
    case isFalse =>
      have calling := h.setPc_call hs
      exact ⟨calling.toStacked.of_eq rfl rfl, calling.atCall, hs.callee⟩
  | cons id rest =>
    obtain ⟨hid, hrest⟩ := List.forall_mem_cons.mp hids
    exact h.evalThen hid rfl ⟨hs, hrest⟩

/-- Work that was waiting for a value goes on within its activation. -/
lemma resumeValue (h : Working e o os m) (v : Value) {p : Pending} (hp : p.isPlain = true)
    (at_ : p.At e o) (hf : ∀ ref, constructed? v p ≠ some (.function ref)) :
    Sound e K (o :: os) (Machine.resumeValue e m v p) := by
  cases p with
  | leave => cases hp
  | forEach array callback index => cases hp
  | map array callback index done => cases hp
  | reduce array callback index => cases hp
  | elements rest done => exact h.elements _ at_
  | property key rest done => exact h.properties hw _ at_
  | unary op => exact h.give _
  | binaryLeft op right => exact h.evalThen at_ rfl trivial
  | binaryRight op left => exact h.give _
  | logical op right =>
    cases op <;> simp only [Machine.resumeValue] <;> split
    all_goals first | exact h.give v | exact h.eval at_
  | conditional consequent alternate =>
    refine h.eval ?_
    split
    · exact at_.1
    · exact at_.2
  | assignName node name half => exact (h.setPc at_).writeName name _ _
  | accessObject a =>
    simp only [Machine.resumeValue]
    split
    case isTrue hc => exact h.evalThen (Access.At.computed at_ hc) rfl at_
    case isFalse => exact h.access at_ v _
  | accessKey a receiver => exact h.access at_ receiver _
  | assignMember node receiver key half => exact (h.setPc at_).writeMember receiver key _ _
  | callee site args =>
    refine h.arguments hw at_.1 v [] at_.2 fun hargs hc ref hv => hf ref ?_
    subst hargs hv
    exact if_pos hc
  | arguments site f rest done =>
    refine h.arguments hw at_.1 f _ at_.2 fun hrest hc ref hv => hf ref ?_
    subst hrest hv
    exact if_pos hc
  | construct =>
    simp only [Machine.resumeValue]
    split
    case h_4 => exact h.giveFrom _
    all_goals exact h.give _
  | ifTest consequent alternate =>
    obtain ⟨hconsequent, halternate⟩ := at_
    simp only [Machine.resumeValue]
    split
    · exact h.exec hconsequent
    · split
      · exact h.exec (halternate _ rfl)
      · exact h.finish
  | whileTest test body =>
    simp only [Machine.resumeValue]
    split
    · exact h.execThen (p := .whileBody test body) at_.2 rfl at_
    · exact h.finish
  | forInit p => exact h.testFor at_
  | forTest p =>
    simp only [Machine.resumeValue]
    split
    · exact h.execThen (p := .forBody p) (ForParts.At.body at_) rfl at_
    · exact h.finish
  | forUpdate p => exact h.testFor at_
  | returnValue => exact h.abrupt trivial
  | throwValue node => exact (h.setPc at_).throwValue v
  | declare kind declarator name rest => exact (h.bindDeclared kind at_.1 name v).declare hw _ at_.2
  | discard => exact h.finish
  | statements rest => exact h.give v
  | restoreScope outer => exact (h.setScope outer).give v
  | whileBody test body => exact h.give v
  | forBody p => exact h.give v

end Working

namespace Open

lemma resumeDone (h : Open e o os m) {p : Pending} (hp : p.isLeave = false)
    (at_ : p.At e o) : Sound e K (o :: os) (m.resumeDone p) := by
  cases p with
  | leave => cases hp
  | statements rest => exact h.runStatements at_
  | restoreScope outer => exact (h.setScope outer).finish
  | whileBody test body => exact h.evalThen (p := .whileTest test body) at_.1 rfl at_
  | forInit p => exact h.testFor at_
  | forBody p => exact h.updateFor at_
  | _ => exact h.finish

end Open

/-- An abrupt end passes an entry within its activation. -/
lemma resumeAbrupt_sound (h : Stacked e (o :: os) m) {p : Pending} (hp : p.isLeave = false)
    (at_ : p.At e o) (standing : m.Free ∨ p.isIterate = true ∧ m.AtCall e) {a : Abrupt} (ha : K a) :
    Sound e K (o :: os) (m.resumeAbrupt a p) := by
  have passes : Sound e K (o :: os) (m.goTo (.abrupt a)) :=
    ⟨h.of_eq rfl rfl, standing.imp_right And.right, .inl ha⟩
  by_cases hi : p.isIterate = true
  · cases p <;> first | exact passes | cases hi
  have h : Open e o os m := ⟨h, standing.resolve_right fun hs => hi hs.1⟩
  cases p with
  | leave => cases hp
  | restoreScope outer => exact (h.setScope outer).abrupt ha
  | whileBody test body =>
    cases a with
    | broken => exact h.finish
    | continued => exact h.evalThen (p := .whileTest test body) at_.1 rfl at_
    | _ => exact passes
  | forBody p =>
    cases a with
    | broken => exact h.finish
    | continued => exact h.updateFor at_
    | _ => exact passes
  | _ => exact passes

/-- The end of an activation goes back to the call that it was waited for at. -/
lemma Stacked.leave (hw : e.tree.WellFormed) (h : Stacked e (o :: os) m) {ps : List Pending}
    (hps : PendingAt e ps os) (control : Control) :
    let m' : Machine := ⟨m.store, m.calls.pop, m.output, control, ps⟩
    Stacked e os m' ∧ (m'.Free ∨ m'.AtCall e) ∧ m'.PcInside e := by
  have owners := h.owners
  have callers := h.callers
  have depth := h.depth
  rw [← CallStack.length_toList] at depth
  cases hc : m.calls.toList with
  | nil => rw [hc] at owners; cases owners
  | cons a as =>
    rw [hc] at owners callers depth
    have popped : m.calls.pop.toList = as := by rw [CallStack.toList_pop, hc, List.tail_cons]
    have owners := (List.forall₂_cons.mp owners).2
    refine ⟨⟨?_, ?_, ?_, hps⟩, ?_, ?_⟩
    · rw [popped]
      exact owners
    · rw [popped]
      exact fun b hb => callers b (List.mem_of_mem_tail hb)
    · rw [← CallStack.length_toList, popped]
      exact Nat.le_of_succ_le depth
    · cases as with
      | cons b bs => exact .inr ⟨b, bs, popped, callers b List.mem_cons_self⟩
      | nil =>
        -- the outermost activation leaves no pending work behind
        cases owners
        refine .inl fun q hq => ?_
        cases ps with
        | nil => cases hq
        | cons p ps => cases p <;> simp [PendingAt] at hps
    · intro b bs hb
      rw [popped] at hb
      subst hb
      exact inside_of_isCall hw (callers b List.mem_cons_self)

end Machine

end ScriptDebugger
