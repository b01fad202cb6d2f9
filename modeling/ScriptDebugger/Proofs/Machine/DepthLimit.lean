import ScriptDebugger.Proofs.Machine.Halting

/-!
# The depth limit

The limit of the call stack is looked at only where a function or a program
gets its activation. With room there, a machine with a greater limit takes the
same step; without room, an error is thrown that nothing takes, so that the run
ends with it.
-/

namespace ScriptDebugger

namespace Machine

/-- The same machine with another limit of its call stack. -/
def withLimit (d : Nat) (m : Machine) : Machine :=
  { m with calls := { m.calls with maxDepth := d } }

variable {e : Setting} {d : Nat}

section WithLimit

variable (m : Machine)

@[simp] lemma store_withLimit : (m.withLimit d).store = m.store := rfl

@[simp] lemma scope_withLimit : (m.withLimit d).scope = m.scope := rfl

@[simp] lemma lookup?_withLimit (name : String) :
    (m.withLimit d).lookup? name = m.lookup? name := rfl

@[simp] lemma setPc_withLimit (id : NodeId) :
    (m.withLimit d).setPc id = (m.setPc id).withLimit d := rfl

lemma isFinal_withLimit : (m.withLimit d).isFinal = m.isFinal := by
  obtain ⟨store, calls, output, control, pending⟩ := m
  cases pending <;> cases control <;> rfl

lemma runStatements_withLimit (ids : List NodeId) :
    (m.withLimit d).runStatements ids = (m.runStatements ids).withLimit d := by
  cases ids <;> rfl

lemma runBody_withLimit (body : NodeId) :
    runBody e body (m.withLimit d) = (runBody e body m).withLimit d := by
  rw [runBody, runBody]
  split
  · rfl
  · exact runStatements_withLimit m _

lemma callBack_withLimit (array : Ref) (callback : Value) (index : Nat) (before : List Value)
    (p : Pending) {ending : Machine → Machine}
    (hending : ending (m.withLimit d) = (ending m).withLimit d) :
    (m.withLimit d).callBack array callback index before p ending =
      (m.callBack array callback index before p ending).withLimit d := by
  rw [callBack, callBack, store_withLimit]
  cases (m.store.array array)[index]? with
  | some item => rfl
  | none => exact hending

lemma forEachFrom_withLimit (array : Ref) (callback : Value) (index : Nat) :
    (m.withLimit d).forEachFrom array callback index =
      (m.forEachFrom array callback index).withLimit d :=
  callBack_withLimit m array callback index [] _ rfl

lemma mapFrom_withLimit (array : Ref) (callback : Value) (index : Nat) (done : List Value) :
    (m.withLimit d).mapFrom array callback index done =
      (m.mapFrom array callback index done).withLimit d :=
  callBack_withLimit m array callback index [] _ rfl

lemma reduceFrom_withLimit (array : Ref) (callback : Value) (index : Nat) (acc : Value) :
    (m.withLimit d).reduceFrom array callback index acc =
      (m.reduceFrom array callback index acc).withLimit d :=
  callBack_withLimit m array callback index [acc] _ rfl

lemma iterate_withLimit (method : ArrayMethod) (array : Ref) (args : List Value) :
    (m.withLimit d).iterate method array args = (m.iterate method array args).withLimit d := by
  cases method with
  | forEach => exact forEachFrom_withLimit m array _ 0
  | map => exact mapFrom_withLimit m array _ 0 []
  | reduce =>
    simp only [iterate, store_withLimit]
    split
    · exact reduceFrom_withLimit m array _ 0 _
    · cases (m.store.array array)[0]? with
      | some first => exact reduceFrom_withLimit m array _ 1 first
      | none => rfl
  | _ => rfl

lemma callBuiltin_withLimit (b : BoundBuiltin) (args : List Value) :
    (m.withLimit d).callBuiltin b args = (m.callBuiltin b args).withLimit d := by
  obtain ⟨builtin, receiver⟩ := b
  cases builtin with
  | array method =>
    rcases receiver with _ | receiver
    · rfl
    · cases receiver with
      | array ref =>
        simp only [callBuiltin]
        split
        · exact iterate_withLimit m method ref args
        · rfl
      | _ => rfl
  | string method =>
    rcases receiver with _ | receiver
    · rfl
    · cases receiver <;> rfl
  | _ => rfl

/-- With room for an activation, the limit does not matter. -/
lemma enter_withLimit (a : Activation) {next : Machine → Machine}
    (room : m.calls.depth < m.calls.maxDepth) (le : m.calls.maxDepth ≤ d)
    (hnext : ∀ m : Machine, next (m.withLimit d) = (next m).withLimit d) :
    (m.withLimit d).enter a next = (m.enter a next).withLimit d := by
  have room' : (m.withLimit d).calls.activations.size < (m.withLimit d).calls.maxDepth :=
    Nat.lt_of_lt_of_le room le
  have room : m.calls.activations.size < m.calls.maxDepth := room
  simp only [enter, CallStack.push?, if_pos room, if_pos room']
  exact hnext { m with calls := { m.calls with activations := m.calls.activations.push a } }

lemma callClosure_withLimit (c : Closure) (args : List Value)
    (room : m.calls.depth < m.calls.maxDepth) (le : m.calls.maxDepth ≤ d) :
    (m.withLimit d).callClosure e c args = (m.callClosure e c args).withLimit d := by
  obtain ⟨s, scope, hnew⟩ : ∃ s scope, m.store.newScope (some c.scope) = (s, scope) :=
    ⟨_, _, rfl⟩
  simp only [callClosure, enterFunction, store_withLimit, hnew]
  apply enter_withLimit { m with store := bindParams s scope c.params args } _ room le
  intro m
  exact runBody_withLimit
    (Machine.push { m with store := m.store.hoist e scope (e.tree.blockBody c.body) } .leave) _

lemma call_withLimit (f : Value) (args : List Value) (name : CalleeName)
    (room : ∀ ref, f = .function ref → m.calls.depth < m.calls.maxDepth)
    (le : m.calls.maxDepth ≤ d) :
    (m.withLimit d).call e f args name = (m.call e f args name).withLimit d := by
  cases f with
  | function ref => exact callClosure_withLimit m _ args (room ref rfl) le
  | builtin ref => exact callBuiltin_withLimit m _ args
  | _ => cases name <;> rfl

lemma construct_withLimit (f : Value) (args : List Value) (callee : NodeId)
    (room : ∀ ref, f = .function ref → m.calls.depth < m.calls.maxDepth)
    (le : m.calls.maxDepth ≤ d) :
    (m.withLimit d).construct e f args callee = (m.construct e f args callee).withLimit d := by
  cases f with
  | function ref => exact callClosure_withLimit (m.push .construct) _ args (room ref rfl) le
  | builtin ref =>
    simp only [construct, store_withLimit]
    split
    · exact callBuiltin_withLimit m _ args
    · rfl
  | _ => rfl

lemma readName_withLimit (name : String) {next : Machine → Value → Machine}
    (hnext : ∀ v, next (m.withLimit d) v = (next m v).withLimit d) :
    (m.withLimit d).readName name next = (m.readName name next).withLimit d := by
  rw [readName, readName, lookup?_withLimit]
  cases m.lookup? name with
  | some v => exact hnext v
  | none => rfl

lemma writeName_withLimit (name : String) (v result : Value) :
    (m.withLimit d).writeName name v result = (m.writeName name v result).withLimit d := by
  simp only [writeName_eq, store_withLimit, scope_withLimit]
  split <;> rfl

lemma readMember_withLimit (receiver : Value) (key : String) {next : Machine → Value → Machine}
    (hnext : ∀ (m : Machine) (v : Value), next (m.withLimit d) v = (next m v).withLimit d) :
    (m.withLimit d).readMember receiver key next =
      (m.readMember receiver key next).withLimit d := by
  simp only [readMember, store_withLimit]
  split
  · exact hnext m _
  · exact hnext { m with store := _ } _
  · rfl

lemma writeMember_withLimit (receiver : Value) (key : String) (v result : Value) :
    (m.withLimit d).writeMember receiver key v result =
      (m.writeMember receiver key v result).withLimit d := by
  simp only [writeMember, store_withLimit]
  split <;> rfl

lemma access_withLimit (a : Access) (receiver : Value) (key : String) :
    (m.withLimit d).access a receiver key = (m.access a receiver key).withLimit d := by
  obtain ⟨node, keyNode, computed, goal⟩ := a
  cases goal with
  | read => exact readMember_withLimit (m.setPc node) receiver key fun _ _ => rfl
  | assign op right =>
    cases op with
    | assign => rfl
    | compound op =>
      simp only [access, setPc_withLimit]
      exact readMember_withLimit _ receiver key fun _ _ => rfl
  | update op before =>
    simp only [access, setPc_withLimit]
    exact readMember_withLimit _ receiver key fun m _ => writeMember_withLimit m receiver key _ _

lemma properties_withLimit (done : Record) (ps : List NodeId) :
    (m.withLimit d).properties e done ps = (m.properties e done ps).withLimit d := by
  induction ps with
  | nil => rfl
  | cons p rest ih =>
    simp only [properties]
    split
    · rfl
    · exact ih

lemma elements_withLimit (done : List Value) (ids : List NodeId) :
    (m.withLimit d).elements done ids = (m.elements done ids).withLimit d := by
  cases ids <;> rfl

lemma arguments_withLimit (site : CallSite) (f : Value) (done : List Value) (ids : List NodeId)
    (room : ∀ ref, f = .function ref → ids = [] → site.constructs = true →
      m.calls.depth < m.calls.maxDepth)
    (le : m.calls.maxDepth ≤ d) :
    (m.withLimit d).arguments e site f done ids = (m.arguments e site f done ids).withLimit d := by
  cases ids with
  | cons id rest => rfl
  | nil =>
    cases hc : site.constructs with
    | false => simp only [arguments, hc]; rfl
    | true =>
      have depth : (m.setPc site.node).calls.depth = m.calls.depth := by
        simp [setPc, CallStack.setPc, CallStack.modifyTop, CallStack.depth]
      have same := construct_withLimit (e := e) (m.setPc site.node) f done.reverse site.callee
        (fun ref hf => depth ▸ room ref hf rfl hc) le
      simpa only [arguments, hc, if_true, setPc_withLimit] using same

lemma functionValue_withLimit (id : NodeId) (name : Option NodeId) (params : List NodeId)
    (body : NodeId) :
    (m.withLimit d).functionValue e id name params body =
      (m.functionValue e id name params body).withLimit d := by
  simp only [functionValue]
  split <;> rfl

lemma assignment_withLimit (id : NodeId) (op : AssignOp) (left right : NodeId) :
    (m.withLimit d).assignment e id op left right =
      (m.assignment e id op left right).withLimit d := by
  simp only [assignment]
  split
  · cases op with
    | assign => rfl
    | compound op => exact readName_withLimit m _ fun _ => rfl
  · rfl
  · rfl

lemma update_withLimit (id : NodeId) (op : UpdateOp) (before : Bool) (argument : NodeId) :
    (m.withLimit d).update e id op before argument =
      (m.update e id op before argument).withLimit d := by
  simp only [update]
  split
  · exact readName_withLimit m _ fun _ => writeName_withLimit m _ _ _
  · rfl
  · rfl

lemma evalNode_withLimit (id : NodeId) :
    evalNode e (m.withLimit d) id = (evalNode e m id).withLimit d := by
  simp only [evalNode, setPc_withLimit]
  cases e.tree.kind id with
  | identifier name => exact readName_withLimit _ name fun _ => rfl
  | arrayExpression ids => exact elements_withLimit _ [] ids
  | objectExpression ps => exact properties_withLimit _ .empty ps
  | functionExpression name params body => exact functionValue_withLimit _ id name params body
  | unaryExpression op argument =>
    rw [apply_ite (withLimit d)]
    rfl
  | updateExpression op before argument => exact update_withLimit _ id op before argument
  | assignmentExpression op left right => exact assignment_withLimit _ id op left right
  | _ => rfl

lemma declare_withLimit (kind : VarKind) (ds : List NodeId) :
    (m.withLimit d).declare e kind ds = (m.declare e kind ds).withLimit d := by
  induction ds generalizing m with
  | nil => rfl
  | cons id rest ih =>
    simp only [declare]
    cases e.tree.kind id with
    | variableDeclarator nameId init =>
      cases init with
      | some value => rfl
      | none =>
        dsimp only
        split
        · exact ih (m.define m.scope _ .undefined _)
        · exact ih m
    | _ => exact ih m

lemma bindDeclared_withLimit (kind : VarKind) (declarator : NodeId) (name : String) (v : Value) :
    (m.withLimit d).bindDeclared kind declarator name v =
      (m.bindDeclared kind declarator name v).withLimit d := by
  simp only [bindDeclared_eq, setPc_withLimit, store_withLimit, scope_withLimit]
  split
  · rfl
  · split <;> rfl

lemma runBlock_withLimit (body : List NodeId) :
    (m.withLimit d).runBlock e body = (m.runBlock e body).withLimit d := by
  simp only [runBlock]
  split
  · exact runStatements_withLimit (Machine.setScope (Machine.push { m with store := _ } _) _) body
  · exact runStatements_withLimit m body

lemma testFor_withLimit (p : ForParts) :
    (m.withLimit d).testFor p = (m.testFor p).withLimit d := by
  simp only [testFor]
  split <;> rfl

lemma updateFor_withLimit (p : ForParts) :
    (m.withLimit d).updateFor p = (m.updateFor p).withLimit d := by
  simp only [updateFor]
  split
  · rfl
  · exact testFor_withLimit m p

lemma startFor_withLimit (init : Option NodeId) (p : ForParts) :
    (m.withLimit d).startFor e init p = (m.startFor e init p).withLimit d := by
  cases init with
  | none => exact testFor_withLimit m p
  | some id =>
    simp only [startFor]
    split
    · exact declare_withLimit ((m.setPc id).push (.forInit p)) _ _
    · rfl

lemma runFor_withLimit (init : Option NodeId) (p : ForParts) :
    (m.withLimit d).runFor e init p = (m.runFor e init p).withLimit d := by
  simp only [runFor]
  split
  · exact startFor_withLimit (Machine.setScope (Machine.push { m with store := _ } _) _) init p
  · exact startFor_withLimit m init p

lemma execNode_withLimit (id : NodeId) :
    execNode e (m.withLimit d) id = (execNode e m id).withLimit d := by
  simp only [execNode, setPc_withLimit]
  split
  · rfl
  · cases e.tree.kind id with
    | variableDeclaration kind declarators => exact declare_withLimit _ kind declarators
    | blockStatement body => exact runBlock_withLimit _ body
    | forStatement init test update body => exact runFor_withLimit _ init _
    | returnStatement argument => cases argument <;> rfl
    | debuggerStatement =>
      dsimp only
      split <;> rfl
    | _ => rfl

lemma resumeValue_withLimit (v : Value) (p : Pending)
    (room : ∀ ref, constructed? v p = some (.function ref) → m.calls.depth < m.calls.maxDepth)
    (le : m.calls.maxDepth ≤ d) :
    resumeValue e (m.withLimit d) v p = (resumeValue e m v p).withLimit d := by
  cases p with
  | elements rest done => exact elements_withLimit m (v :: done) rest
  | property key rest done => exact properties_withLimit m _ rest
  | logical op right =>
    simp only [resumeValue]
    rw [apply_ite (withLimit d)]
    rfl
  | assignName node name half => exact writeName_withLimit (m.setPc node) name _ _
  | accessObject a =>
    simp only [resumeValue]
    split
    · rfl
    · exact access_withLimit m a v _
  | accessKey a receiver => exact access_withLimit m a receiver _
  | assignMember node receiver key half =>
    exact writeMember_withLimit (m.setPc node) receiver key _ _
  | callee site args =>
    refine arguments_withLimit m site v [] args (fun ref hf hargs hc => room ref ?_) le
    subst hf hargs
    exact if_pos hc
  | arguments site f rest done =>
    refine arguments_withLimit m site f (v :: done) rest (fun ref hf hrest hc => room ref ?_) le
    subst hf hrest
    exact if_pos hc
  | construct => cases v <;> rfl
  | forEach array callback index => exact forEachFrom_withLimit m array callback _
  | map array callback index done => exact mapFrom_withLimit m array callback _ _
  | reduce array callback index => exact reduceFrom_withLimit m array callback _ v
  | ifTest consequent alternate =>
    simp only [resumeValue]
    split
    · rfl
    · cases alternate <;> rfl
  | whileTest test body =>
    simp only [resumeValue]
    split <;> rfl
  | forInit p => exact testFor_withLimit m p
  | forTest p =>
    simp only [resumeValue]
    split <;> rfl
  | forUpdate p => exact testFor_withLimit m p
  | declare kind declarator name rest =>
    simp only [resumeValue, bindDeclared_withLimit]
    exact declare_withLimit _ kind rest
  | _ => rfl

lemma resumeDone_withLimit (p : Pending) :
    resumeDone (m.withLimit d) p = (resumeDone m p).withLimit d := by
  cases p with
  | statements rest => exact runStatements_withLimit m rest
  | forInit p => exact testFor_withLimit m p
  | forBody p => exact updateFor_withLimit m p
  | _ => rfl

lemma resumeAbrupt_withLimit (a : Abrupt) (p : Pending) :
    resumeAbrupt (m.withLimit d) a p = (resumeAbrupt m a p).withLimit d := by
  cases p with
  | forBody p =>
    cases a with
    | continued => exact updateFor_withLimit m p
    | _ => rfl
  | _ => cases a <;> rfl

end WithLimit

variable {m : Machine}

/-- Whether the next step calls a function for which there is no room on the call stack. -/
def Overflows (m : Machine) : Prop := m.called?.isSome = true ∧ m.calls.maxDepth ≤ m.calls.depth

/-- Without an overflow, a greater limit makes no difference to a step. -/
theorem step_withLimit (room : ¬ m.Overflows) (le : m.calls.maxDepth ≤ d) :
    (m.withLimit d).step e = (m.step e).withLimit d := by
  have room (h : m.called?.isSome = true) : m.calls.depth < m.calls.maxDepth := by
    by_contra full
    exact room ⟨h, Nat.le_of_not_lt full⟩
  obtain ⟨store, calls, output, control, pending⟩ := m
  cases control with
  | eval id => exact evalNode_withLimit ⟨store, calls, output, .done, pending⟩ id
  | exec id => exact execNode_withLimit ⟨store, calls, output, .done, pending⟩ id
  | call f args name =>
    refine call_withLimit ⟨store, calls, output, .done, pending⟩ f args name (fun ref hf => ?_) le
    subst hf
    exact room rfl
  | value v =>
    cases pending with
    | nil => rfl
    | cons p pending =>
      refine resumeValue_withLimit ⟨store, calls, output, .done, pending⟩ v p
        (fun ref hf => room ?_) le
      simp only [called?, hf]
      rfl
  | done =>
    cases pending with
    | nil => rfl
    | cons p pending => exact resumeDone_withLimit ⟨store, calls, output, .done, pending⟩ p
  | abrupt a =>
    cases pending with
    | nil => rfl
    | cons p pending => exact resumeAbrupt_withLimit ⟨store, calls, output, .done, pending⟩ a p

/-- What a call throws that finds no room. -/
lemma step_of_overflows (h : m.Overflows) :
    ∃ m' : Machine, m.step e = m'.throwFault .stackExceeded := by
  obtain ⟨some, full⟩ := h
  obtain ⟨c, hc⟩ := Option.isSome_iff_exists.mp some
  have running : m.isFinal = false := by
    obtain ⟨store, calls, output, control, pending⟩ := m
    cases pending with
    | nil => cases control <;> first | rfl | cases hc
    | cons p ps => rfl
  cases step_cases (e := e) running with
  | within called resumed scope =>
    rw [called] at hc
    cases hc
  | leave called control ended resumed stop step =>
    rw [called] at hc
    cases hc
  | call c' args m' called scope quiet resumed hstep =>
    have same := scope.sameActivation
    have full' : ¬ m'.calls.depth < m'.calls.maxDepth := by
      rw [same.depth_eq, same.maxDepth]
      exact Nat.not_lt_of_le full
    obtain ⟨s, -, hthrow⟩ := callClosure_of_full (e := e) c' args full'
    exact ⟨_, hstep.trans hthrow⟩

/-- A run without an overflow is the same with a greater limit. -/
lemma steps_withLimit (le : m.calls.maxDepth ≤ d) {n : Nat}
    (room : ∀ k < n, ¬ (m.steps e k).Overflows) :
    (m.withLimit d).steps e n = (m.steps e n).withLimit d := by
  induction n with
  | zero => rfl
  | succ n ih =>
    have same : (m.steps e n).calls.maxDepth = m.calls.maxDepth := (follows_steps m n).maxDepth
    rw [steps_succ, steps_succ, ih fun k hk => room k (by omega)]
    exact step_withLimit (room n (by omega)) (same ▸ le)

end Machine

/-- The run ended since there was no room on the call stack. -/
def Outcome.ExceedsDepth (o : Outcome) : Prop :=
  ∃ error frames, o = .raised error frames ∧ error.name = "RangeError" ∧
    error.message = "Maximum call stack size exceeded"

namespace Interpreter

open Machine

/-- The error for a full call stack becomes the outcome. -/
lemma exceedsDepth_of_throwFault {m m' : Machine} (scope : ScopeId)
    (control : m'.control = (m.throwFault .stackExceeded).control)
    (store : m'.store = (m.throwFault .stackExceeded).store) :
    (outcomeOf scope m').ExceedsDepth := by
  have control : m'.control =
      .abrupt (.thrown (.error m.store.errors.size) m.calls.capture) := control
  have error : m'.store.error m.store.errors.size = Fault.stackExceeded.toError := by
    rw [store]
    simp [Store.error, throwFault, throwValue, goTo, Store.newError]
  refine ⟨.ofValue m'.store (.error m.store.errors.size), m.calls.capture,
    by simp only [outcomeOf, control], ?_⟩
  simp only [ThrownError.ofValue, error]
  exact ⟨rfl, rfl⟩

variable (i : Interpreter)

/-- A run that overflows ends with the error. -/
lemma exceedsDepth_of_overflows {m m' : Machine} {e : Setting} {scope : ScopeId} {k : Nat}
    (ends : Ends e m m') (h : (m.steps e k).Overflows) : (outcomeOf scope m').ExceedsDepth := by
  obtain ⟨thrown, hstep⟩ := step_of_overflows (e := e) h
  have later : Ends e (thrown.throwFault .stackExceeded) m' := by
    rw [← hstep, ← steps_succ]
    exact ends.steps (k + 1)
  obtain ⟨-, n, rfl⟩ := later
  obtain ⟨control, -, store, -⟩ := steps_of_uncaught (e := e)
    (m := thrown.throwFault .stackExceeded) rfl rfl n
  exact exceedsDepth_of_throwFault scope control store

/-- With room for its first activation, a program starts the same with a greater limit. -/
lemma startProgram_withLimit {d : Nat} (room : 0 < i.maxDepth) (le : i.maxDepth ≤ d)
    (scope : ScopeId) (halt : Node → Bool) :
    ({ i with maxDepth := d } : Interpreter).startProgram scope halt =
      (i.startProgram scope halt).withLimit d := by
  dsimp only [startProgram]
  apply enter_withLimit i.idle ⟨i.root, scope, none⟩ room le
  intro m
  exact runStatements_withLimit
    (Machine.push { m with store := m.store.hoist (i.setting halt) scope i.body } .leave) i.body

/-- A run that does not end for want of room on the call stack is the same with a greater limit:
it ends alike, with the same frames, scopes and values and the same output. -/
theorem runProgram_greater_limit {d fuel : Nat} {scope : ScopeId} {halt : Node → Bool} {r : Run}
    (le : i.maxDepth ≤ d) (hr : i.runProgram fuel scope halt = some r)
    (fits : ¬ r.outcome.ExceedsDepth) :
    ({ i with maxDepth := d } : Interpreter).runProgram fuel scope halt =
      some { r with interpreter := { r.interpreter with maxDepth := d } } := by
  obtain ⟨m, hrun, rfl⟩ := i.runProgram_eq_some.mp hr
  have ends := ends_of_run hrun
  have room : 0 < i.maxDepth := by
    by_contra full
    rw [i.startProgram_of_full scope halt full] at ends
    obtain ⟨-, n, rfl⟩ := ends
    rw [steps_of_isFinal rfl] at fits
    exact fits (exceedsDepth_of_throwFault scope rfl rfl)
  obtain ⟨hfinal, n, hn, hend⟩ := run_eq_some_iff.mp hrun
  have start := i.startProgram_withLimit room le scope halt
  have bound : (i.startProgram scope halt).calls.maxDepth ≤ d := by
    obtain ⟨calls, -, hmax, hstart⟩ := i.startProgram_of_room scope halt room
    rw [hstart, (SameScope.runStatements (.refl (e := i.setting halt) _) i.body).maxDepth]
    exact hmax ▸ le
  have same := steps_withLimit bound (n := n) fun k _ h => fits (exceedsDepth_of_overflows ends h)
  rw [hend] at same
  refine ({ i with maxDepth := d } : Interpreter).runProgram_eq_some.mpr
    ⟨m.withLimit d, ?_, rfl⟩
  rw [start]
  exact run_eq_some_iff.mpr ⟨(isFinal_withLimit m).trans hfinal, n, hn, same⟩

/-- Three activations, with room for three and with room for five. -/
theorem runProgram_greater_limit_nested_call :
    ∃ tree r, Tree.parse "function f(g) { if (g) g(); } f(f);" = .ok tree ∧
      (ofTree tree "function f(g) { if (g) g(); } f(f);" false 3).newProgramScope.1.runProgram 40 1
        neverHalt = some r ∧
      ¬ r.outcome.ExceedsDepth ∧
      (ofTree tree "function f(g) { if (g) g(); } f(f);" false 5).newProgramScope.1.runProgram 40 1
        neverHalt = some { r with interpreter := { r.interpreter with maxDepth := 5 } } := by
  have parses : (Tree.parse "function f(g) { if (g) g(); } f(f);").toOption.isSome = true := by
    decide +kernel
  have completes : ((Tree.parse "function f(g) { if (g) g(); } f(f);").toOption.bind fun tree =>
      ((ofTree tree "function f(g) { if (g) g(); } f(f);" false 3).newProgramScope.1.runProgram 40 1
        neverHalt).map fun r => r.outcome matches .completed _) = some true := by decide +kernel
  cases htree : Tree.parse "function f(g) { if (g) g(); } f(f);" with
  | error e => simp [htree, Except.toOption] at parses
  | ok tree =>
    rw [htree] at completes
    obtain ⟨r, hr, hout⟩ := Option.map_eq_some_iff.mp completes
    have fits : ¬ r.outcome.ExceedsDepth := by
      rintro ⟨error, frames, hraised, -⟩
      rw [hraised] at hout
      cases hout
    have le : 3 ≤ 5 := by decide
    exact ⟨tree, r, rfl, hr, fits, runProgram_greater_limit _ le hr fits⟩

end Interpreter

end ScriptDebugger
