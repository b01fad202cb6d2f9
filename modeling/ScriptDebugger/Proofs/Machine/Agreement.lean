import ScriptDebugger.Proofs.Machine.Activation

/-!
# Settings that agree

A step reads its setting in a few places only: what the nodes of the tree are,
their text, whether the node it is about to execute or enter halts the run, and
whether `debugger` statements do. Settings that agree there take the same step.
-/

namespace ScriptDebugger

/-- The trees and texts of two settings cannot be told apart by a script. -/
structure Setting.Agrees (e e' : Setting) : Prop where
  kind : ∀ id, e'.tree.kind id = e.tree.kind id
  span : ∀ id, e'.tree.span id = e.tree.span id
  size : e'.tree.size = e.tree.size
  source : e'.source = e.source

namespace Setting.Agrees

variable {e e' : Setting}

lemma textOf (h : e.Agrees e') (id : NodeId) : e'.textOf id = e.textOf id := by
  simp only [Setting.textOf, h.span, h.source]

lemma closure (h : e.Agrees e') (node : NodeId) (name : Option String) (params : List NodeId)
    (body : NodeId) (scope : ScopeId) :
    e'.closure node name params body scope = e.closure node name params body scope := by
  simp only [Setting.closure, h.kind, h.span, h.textOf]

lemma nameOf (h : e.Agrees e') (id : NodeId) : e'.tree.nameOf id = e.tree.nameOf id := by
  simp only [Tree.nameOf, h.kind]

lemma blockBody (h : e.Agrees e') (id : NodeId) :
    e'.tree.blockBody id = e.tree.blockBody id := by
  simp only [Tree.blockBody, h.kind]

lemma declaresLexically (h : e.Agrees e') (body : List NodeId) :
    e'.tree.declaresLexically body = e.tree.declaresLexically body := by
  simp only [Tree.declaresLexically, h.kind]

lemma varNamesFrom (h : e.Agrees e') (fuel : Nat) (id : NodeId) :
    e'.tree.varNamesFrom fuel id = e.tree.varNamesFrom fuel id := by
  induction fuel generalizing id with
  | zero => rfl
  | succ fuel ih =>
    have same : e'.tree.varNamesFrom fuel = e.tree.varNamesFrom fuel := funext ih
    simp only [Tree.varNamesFrom, Tree.declaredNames, h.kind, same]

lemma varNames (h : e.Agrees e') (body : List NodeId) :
    e'.tree.varNames body = e.tree.varNames body := by
  have same : e'.tree.varNamesFrom (e.tree.size + 1) = e.tree.varNamesFrom (e.tree.size + 1) :=
    funext (h.varNamesFrom _)
  simp only [Tree.varNames, h.size, same]

lemma hoistFunctions (h : e.Agrees e') (s : Store) (scope : ScopeId) (body : List NodeId) :
    s.hoistFunctions e' scope body = s.hoistFunctions e scope body := by
  have same : Store.declareFunction e' scope = Store.declareFunction e scope := by
    funext s id
    simp only [Store.declareFunction, h.kind, h.nameOf, h.closure]
  simp only [Store.hoistFunctions, same]

lemma hoist (h : e.Agrees e') (s : Store) (scope : ScopeId) (body : List NodeId) :
    s.hoist e' scope body = s.hoist e scope body := by
  simp only [Store.hoist, h.varNames, h.hoistFunctions]

end Setting.Agrees

namespace Machine

variable {e e' : Setting}

/-- The node that the next step may halt at: the statement it starts to execute, or the body of
the function it enters, for which the call stack must have room. -/
def consulted? (m : Machine) : Option NodeId :=
  match m.control with
  | .exec id => some id
  | _ => if m.calls.depth < m.calls.maxDepth then m.called?.map (·.body) else none

section Agreement

variable (h : e.Agrees e')
include h

lemma runBody_agrees (body : NodeId) (m : Machine) (hh : haltsAt e' body = haltsAt e body) :
    runBody e' body m = runBody e body m := by
  simp only [runBody, hh, h.blockBody]

lemma callClosure_agrees (m : Machine) (c : Closure) (args : List Value)
    (hh : m.calls.depth < m.calls.maxDepth → haltsAt e' c.body = haltsAt e c.body) :
    m.callClosure e' c args = m.callClosure e c args := by
  simp only [callClosure, enterFunction, enter, CallStack.push?]
  by_cases room : m.calls.depth < m.calls.maxDepth
  · have := hh room
    simp only [h.hoist, h.blockBody, runBody_agrees h _ _ this]
  · have full : ¬ m.calls.activations.size < m.calls.maxDepth := room
    simp only [full, if_false]

lemma call_agrees (m : Machine) (f : Value) (args : List Value) (name : CalleeName)
    (hh : ∀ ref, f = .function ref → m.calls.depth < m.calls.maxDepth →
      haltsAt e' (m.store.closure ref).body = haltsAt e (m.store.closure ref).body) :
    m.call e' f args name = m.call e f args name := by
  have text : m.calleeText e' name = m.calleeText e name := by
    cases name <;> simp only [calleeText, h.textOf]
  cases f with
  | function ref => exact callClosure_agrees h m _ args (hh ref rfl)
  | builtin ref => rfl
  | _ => simp only [call, text]

lemma construct_agrees (m : Machine) (f : Value) (args : List Value) (callee : NodeId)
    (hh : ∀ ref, f = .function ref → m.calls.depth < m.calls.maxDepth →
      haltsAt e' (m.store.closure ref).body = haltsAt e (m.store.closure ref).body) :
    m.construct e' f args callee = m.construct e f args callee := by
  cases f with
  | function ref => exact callClosure_agrees h (m.push .construct) _ args (hh ref rfl)
  | _ => simp only [construct, h.textOf]

lemma properties_agrees (m : Machine) (done : Record) (ps : List NodeId) :
    m.properties e' done ps = m.properties e done ps := by
  induction ps with
  | nil => rfl
  | cons p rest ih => simp only [properties, h.kind, ih]

lemma arguments_agrees (m : Machine) (site : CallSite) (f : Value) (done : List Value)
    (ids : List NodeId)
    (hh : ∀ ref, f = .function ref → ids = [] → site.constructs = true →
      m.calls.depth < m.calls.maxDepth →
      haltsAt e' (m.store.closure ref).body = haltsAt e (m.store.closure ref).body) :
    m.arguments e' site f done ids = m.arguments e site f done ids := by
  cases ids with
  | cons id rest => rfl
  | nil =>
    cases hc : site.constructs with
    | false => simp only [arguments, hc]; rfl
    | true =>
      have same := construct_agrees h (m.setPc site.node) f done.reverse site.callee
        (fun ref hf room => hh ref hf rfl hc (by simpa [setPc, CallStack.setPc,
          CallStack.modifyTop, CallStack.depth] using room))
      simpa only [arguments, hc, if_true] using same

lemma functionValue_agrees (m : Machine) (id : NodeId) (name : Option NodeId)
    (params : List NodeId) (body : NodeId) :
    m.functionValue e' id name params body = m.functionValue e id name params body := by
  simp only [functionValue, h.kind, h.closure]

lemma assignment_agrees (m : Machine) (id : NodeId) (op : AssignOp) (left right : NodeId) :
    m.assignment e' id op left right = m.assignment e id op left right := by
  simp only [assignment, h.kind]

lemma update_agrees (m : Machine) (id : NodeId) (op : UpdateOp) (before : Bool)
    (argument : NodeId) : m.update e' id op before argument = m.update e id op before argument := by
  simp only [update, h.kind]

lemma evalNode_agrees (m : Machine) (id : NodeId) : evalNode e' m id = evalNode e m id := by
  simp only [evalNode, h.kind, properties_agrees h, functionValue_agrees h, assignment_agrees h,
    update_agrees h, asksUnbound]
  rfl

lemma declare_agrees (m : Machine) (kind : VarKind) (ds : List NodeId) :
    m.declare e' kind ds = m.declare e kind ds := by
  induction ds generalizing m with
  | nil => rfl
  | cons d rest ih => simp only [declare, h.kind, h.nameOf, ih]

lemma runBlock_agrees (m : Machine) (body : List NodeId) :
    m.runBlock e' body = m.runBlock e body := by
  simp only [runBlock, h.declaresLexically, h.hoistFunctions]

lemma runFor_agrees (m : Machine) (init : Option NodeId) (p : ForParts) :
    m.runFor e' init p = m.runFor e init p := by
  have start : ∀ m : Machine, m.startFor e' init p = m.startFor e init p := by
    intro m
    simp only [startFor, h.kind, declare_agrees h]
  simp only [runFor, lexicalInit, h.kind, start]
  rfl

lemma execNode_agrees (m : Machine) (id : NodeId)
    (hs : e.tree.kind id = .debuggerStatement → e'.suspends = e.suspends)
    (hh : haltsAt e' id = haltsAt e id) : execNode e' m id = execNode e m id := by
  simp only [execNode, hh]
  split
  · rfl
  · rw [h.kind]
    cases hk : e.tree.kind id with
    | debuggerStatement => simp only [hs hk]
    | returnStatement argument => cases argument <;> rfl
    | _ => simp only [declare_agrees h, runBlock_agrees h, runFor_agrees h]

lemma resumeValue_agrees (m : Machine) (v : Value) (p : Pending)
    (hh : ∀ ref, constructed? v p = some (.function ref) → m.calls.depth < m.calls.maxDepth →
      haltsAt e' (m.store.closure ref).body = haltsAt e (m.store.closure ref).body) :
    resumeValue e' m v p = resumeValue e m v p := by
  cases p with
  | property key rest done => exact properties_agrees h m _ rest
  | accessObject a => simp only [resumeValue, h.nameOf]
  | callee site args =>
    refine arguments_agrees h m site v [] args (fun ref hf hargs hc => hh ref ?_)
    subst hf hargs
    exact if_pos hc
  | arguments site f rest done =>
    refine arguments_agrees h m site f (v :: done) rest (fun ref hf hrest hc => hh ref ?_)
    subst hf hrest
    exact if_pos hc
  | declare kind declarator name rest => exact declare_agrees h _ kind rest
  | _ => rfl

/-- Settings that agree take the same step, if they treat alike the statement at hand and the
node at which it might halt. -/
theorem step_agrees {m : Machine}
    (hs : ∀ id, m.control = .exec id → e.tree.kind id = .debuggerStatement →
      e'.suspends = e.suspends)
    (hh : ∀ id, m.consulted? = some id → haltsAt e' id = haltsAt e id) :
    m.step e' = m.step e := by
  obtain ⟨store, calls, output, control, pending⟩ := m
  cases control with
  | eval id => exact evalNode_agrees h _ id
  | exec id => exact execNode_agrees h _ id (hs id rfl) (hh id rfl)
  | call f args name =>
    refine call_agrees h _ f args name (fun ref hf room => hh _ ?_)
    subst hf
    exact if_pos room
  | value v =>
    cases pending with
    | nil => rfl
    | cons p pending =>
      refine resumeValue_agrees h _ v p (fun ref hf room => hh _ ?_)
      simp only [consulted?, called?, hf]
      exact if_pos room
  | done => cases pending <;> rfl
  | abrupt a => cases pending <;> rfl

end Agreement

end Machine

end ScriptDebugger
