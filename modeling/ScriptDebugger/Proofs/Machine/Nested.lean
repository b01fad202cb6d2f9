import ScriptDebugger.Proofs.Machine.CallStack
import ScriptDebugger.Proofs.Machine.NestedHoist

/-!
# Machines inside one function more

A machine that runs a script as the body of a function goes along with one that
runs the script on its own (`Machine.Nests`): it has the nested store and call
stack, the same work, and all pending entries but the last, which ends the
script's activation. What a step is made of keeps the two together.
-/

namespace ScriptDebugger

def Activation.nested (a : Activation) : Activation := { a with scope := nestedScope a.scope }

def CallStack.nested (c : CallStack) : CallStack :=
  { c with activations := c.activations.map Activation.nested }

def Frame.nested (f : Frame) : Frame := { f with scope := nestedScope f.scope }

def FrameChain.nested (c : FrameChain) : FrameChain := ⟨c.frames.map Frame.nested⟩

namespace CallStack

variable (c : CallStack)

lemma toList_nested : c.nested.toList = c.toList.map Activation.nested := by
  simp [toList, nested]

lemma top?_nested : c.nested.top? = c.top?.map Activation.nested := by
  rw [top?_eq_head?, toList_nested, List.head?_map, top?_eq_head?]

lemma push?_nested (a : Activation) :
    c.nested.push? a.nested = (c.push? a).map CallStack.nested := by
  simp only [push?, nested, Array.size_map]
  split <;> simp [nested]

lemma pop_nested : c.pop.nested = c.nested.pop := by
  simp [pop, nested]

lemma modifyTop_nested (f f' : Activation → Activation) (hf : ∀ a, (f a).nested = f' a.nested) :
    (c.modifyTop f).nested = c.nested.modifyTop f' := by
  simp only [modifyTop, nested, Array.size_map, Store.map_modify _ f f' hf]

lemma capture_nested : c.nested.capture = c.capture.nested := by
  have from_nested (place : Nat) (as : List Activation) :
      framesFrom place (as.map Activation.nested) = (framesFrom place as).map Frame.nested := by
    induction as generalizing place with
    | nil => rfl
    | cons a rest ih =>
      simp only [List.map_cons, framesFrom, List.isEmpty_map, ih]
      rfl
  have list := c.toList_nested
  simp only [toList] at list
  rw [capture, list, from_nested, capture, FrameChain.nested]

end CallStack

def Abrupt.nested : Abrupt → Abrupt
  | returned v => returned v.nested
  | broken => broken
  | continued => continued
  | thrown v frames => thrown v.nested frames.nested
  | halted reason frames => halted reason frames.nested

def CalleeName.nested : CalleeName → CalleeName
  | source id => source id
  | shown v => shown v.nested

def Control.nested : Control → Control
  | eval id => eval id
  | exec id => exec id
  | call callee args name => call callee.nested (args.map Value.nested) name.nested
  | value v => value v.nested
  | done => done
  | abrupt a => abrupt a.nested

/-- An operator and its nested left side. -/
def nestedHalf (half : HalfApplied) : HalfApplied := half.map fun h => (h.1, h.2.nested)

def Pending.nested : Pending → Pending
  | elements rest done => elements rest (done.map Value.nested)
  | property key rest done => property key rest done.nested
  | binaryRight op left => binaryRight op left.nested
  | assignName node name half => assignName node name (nestedHalf half)
  | accessKey access receiver => accessKey access receiver.nested
  | assignMember node receiver key half => assignMember node receiver.nested key (nestedHalf half)
  | arguments site f rest done => arguments site f.nested rest (done.map Value.nested)
  | forEach array callback index => forEach array callback.nested index
  | map array callback index done => map array callback.nested index (done.map Value.nested)
  | reduce array callback index => reduce array callback.nested index
  | restoreScope outer => restoreScope (nestedScope outer)
  | p => p

/-- A store with a scope for the program. -/
structure Store.Ready (s : Store) : Prop where
  older : s.Older
  size : 2 ≤ s.scopes.size

namespace Store.Ready

variable {s : Store} (h : s.Ready)
include h

lemma one_le : 1 ≤ s.scopes.size := Nat.le_of_succ_le h.size

lemma of_same {s' : Store} (same : s.SameScopes s') : s'.Ready where
  older := fun id p hp => h.older id p ((same.parent id).symm.trans hp)
  size := by rw [same.size]; exact h.size

lemma of_sameBindings {s' : Store} (same : s.SameBindings s') : s'.Ready :=
  h.of_same (.of_sameBindings same)

lemma newScope {parent : Nat} (hp : parent < s.scopes.size) :
    (s.newScope (some parent)).1.Ready where
  older := h.older.newScope hp
  size := by
    have size := h.size
    simp only [Store.newScope, Array.size_push]
    omega

lemma newClosure (c : Closure) : (s.newClosure c).1.Ready := ⟨h.older, h.size⟩

lemma hoistFunctions (e : Setting) (scope : ScopeId) (body : List NodeId) :
    (s.hoistFunctions e scope body).Ready :=
  hoistFunctions_kept (fun h _ => h.newClosure _)
    (fun h _ _ => h.of_same (.define _ scope _ _ true)) h body

lemma hoist (e : Setting) (scope : ScopeId) (body : List NodeId) :
    (s.hoist e scope body).Ready :=
  (h.of_same (.declareVars s scope _)).hoistFunctions e scope body

end Store.Ready

/-- `m'` does what `m` does inside one function more. The last pending entry of `m` ends the
activation of the program; that of the function around it is ended from outside. -/
structure Machine.Nests (n : Nesting) (m m' : Machine) : Prop where
  store : m'.store = m.store.nested n
  calls : m'.calls = m.calls.nested
  output : m'.output = m.output
  control : m'.control = m.control.nested
  pending : m.pending.map Pending.nested = m'.pending ++ [.leave]
  ready : m.store.Ready

namespace Machine.Nests

variable {n : Nesting} {m m' : Machine} (h : m.Nests n m')
include h

lemma scope : m'.scope = nestedScope m.scope := by
  simp only [Machine.scope, h.calls, CallStack.top?_nested]
  cases m.calls.top? <;> rfl

lemma goTo (control : Control) : (m.goTo control).Nests n (m'.goTo control.nested) :=
  { h with control := rfl }

lemma push (p : Pending) : (m.push p).Nests n (m'.push p.nested) :=
  { h with pending := congrArg (p.nested :: ·) h.pending }

lemma give (v : Value) : (m.give v).Nests n (m'.give v.nested) := h.goTo _

lemma finish : m.finish.Nests n m'.finish := h.goTo _

lemma evalThen (id : NodeId) (p : Pending) : (m.evalThen id p).Nests n (m'.evalThen id p.nested) :=
  (h.push p).goTo _

lemma execThen (id : NodeId) (p : Pending) : (m.execThen id p).Nests n (m'.execThen id p.nested) :=
  (h.push p).goTo _

lemma modifyTop (f f' : Activation → Activation) (hf : ∀ a, (f a).nested = f' a.nested) :
    Nests n { m with calls := m.calls.modifyTop f } { m' with calls := m'.calls.modifyTop f' } :=
  { h with calls := by rw [h.calls, CallStack.modifyTop_nested _ f f' hf] }

lemma setPc (id : NodeId) : (m.setPc id).Nests n (m'.setPc id) := h.modifyTop _ _ fun _ => rfl

lemma setScope (scope : ScopeId) :
    (m.setScope scope).Nests n (m'.setScope (nestedScope scope)) := h.modifyTop _ _ fun _ => rfl

lemma pop : Nests n { m with calls := m.calls.pop } { m' with calls := m'.calls.pop } :=
  { h with calls := by rw [h.calls, CallStack.pop_nested] }

lemma print (line : String) : (m.print line).Nests n (m'.print line) :=
  { h with output := by simp only [Machine.print, h.output] }

lemma withStore {s s' : Store} (hs : s' = s.nested n) (ready : s.Ready) :
    Nests n { m with store := s } { m' with store := s' } :=
  { h with store := hs, ready := ready }

lemma define (scope : ScopeId) (name : String) (v : Value) (isMutable : Bool) :
    (m.define scope name v isMutable).Nests n
      (m'.define (nestedScope scope) name v.nested isMutable) := by
  refine h.withStore ?_ (h.ready.of_same (.define _ scope name v isMutable))
  rw [h.store, Store.nested_define n h.ready.one_le]

lemma giveFrom {f f' : Store → Store × Value}
    (hf : f' (m.store.nested n) = ((f m.store).1.nested n, (f m.store).2.nested))
    (ready : (f m.store).1.Ready) : (m.giveFrom f).Nests n (m'.giveFrom f') := by
  have hf : f' m'.store = ((f m.store).1.nested n, (f m.store).2.nested) := h.store ▸ hf
  have stored := h.withStore (congrArg Prod.fst hf) ready
  have control : (f' m'.store).2 = (f m.store).2.nested := congrArg Prod.snd hf
  have given := stored.give (f m.store).2
  rw [← control] at given
  exact given

lemma throwValue (v : Value) : (m.throwValue v).Nests n (m'.throwValue v.nested) := by
  have thrown := h.goTo (.abrupt (.thrown v m.calls.capture))
  rw [Machine.throwValue, Machine.throwValue, h.calls, CallStack.capture_nested]
  exact thrown

lemma throwFault (f : Fault) : (m.throwFault f).Nests n (m'.throwFault f) := by
  have made : (m'.store.newError f.toError).1 = (m.store.newError f.toError).1.nested n := by
    rw [h.store]
    rfl
  have stored := h.withStore made (h.ready.of_sameBindings (.newError _ _))
  have thrown := stored.throwValue (m.store.newError f.toError).2
  have place : (m'.store.newError f.toError).2 = (m.store.newError f.toError).2.nested := by
    rw [h.store]
    rfl
  rw [← place] at thrown
  exact thrown

lemma halt (reason : HaltReason) : (m.halt reason).Nests n (m'.halt reason) := by
  have halted := h.goTo (.abrupt (.halted reason m.calls.capture))
  rw [Machine.halt, Machine.halt, h.calls, CallStack.capture_nested]
  exact halted

lemma runStatements (ids : List NodeId) :
    (m.runStatements ids).Nests n (m'.runStatements ids) := by
  cases ids with
  | nil => exact h.finish
  | cons id rest => exact h.execThen id (.statements rest)

end Machine.Nests

end ScriptDebugger
