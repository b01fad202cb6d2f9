import ScriptDebugger.Machine.Step
import ScriptDebugger.Proofs.Machine.Scopes
import ScriptDebugger.Proofs.Machine.Unwinding

/-!
# What work within an activation keeps

Most of a step is made of a few changes: the program counter moves, other work
comes to hand, an entry is added, a name is bound or assigned, a value is thrown.
`KeptByExpressions` says that a property of machines is kept by the changes that
evaluating expressions is made of, `KeptByStatements` says the same for
statements. Each function of a step that neither calls a function of the script
nor ends an activation keeps whatever these changes keep.
-/

namespace ScriptDebugger

/-- The frames that have been captured with an abrupt end. -/
def Control.frames? : Control → Option FrameChain
  | .abrupt (.thrown _ frames) | .abrupt (.halted _ frames) => some frames
  | _ => none

/-- Work that ends with a value, or has ended normally. -/
def Control.isRegular : Control → Bool
  | .exec _ | .abrupt _ => false
  | _ => true

/-- Entries that wait for a value in the middle of an expression. -/
def Pending.isExpression : Pending → Bool
  | elements .. | property .. | unary _ | binaryLeft .. | binaryRight .. | logical ..
  | conditional .. | assignName .. | accessObject _ | accessKey .. | assignMember .. | callee ..
  | arguments .. | construct | forEach .. | map .. | reduce .. => true
  | _ => false

namespace Machine

/-- What `p` calls or constructs with once it is given `v`; a call of its own comes later. -/
def constructed? (v : Value) : Pending → Option Value
  | .callee site [] => if site.constructs then some v else none
  | .arguments site f [] _ => if site.constructs then some f else none
  | _ => none

lemma writeName_eq (m : Machine) (name : String) (v result : Value) :
    m.writeName name v result =
      match m.store.assignTarget m.scope name with
      | .ok owner => (m.define owner name v true).give result
      | .error .constant => m.throwFault .assignmentToConstant
      | .error .unbound => m.throwFault (.notDefined name) := by
  rw [writeName, Store.assignNearest_eq]
  cases m.store.assignTarget m.scope name with
  | ok owner => rfl
  | error fault => cases fault <;> rfl

/-- A `var` defines its name only where it has no target. -/
lemma bindDeclared_eq (m : Machine) (kind : VarKind) (declarator : NodeId) (name : String)
    (v : Value) :
    m.bindDeclared kind declarator name v =
      if kind.isLexical then m.define m.scope name v (kind != .constKind)
      else
        match (m.setPc declarator).store.assignTarget (m.setPc declarator).scope name with
        | .ok owner => (m.setPc declarator).define owner name v true
        | .error _ => (m.setPc declarator).define (m.setPc declarator).scope name v true := by
  simp only [bindDeclared, Store.assignNearest_eq]
  cases (m.setPc declarator).store.assignTarget (m.setPc declarator).scope name <;> rfl

/-- Goes on in a scope inside the present one, until that is left, with the functions of `body`
bound in it. -/
def enterBlock (e : Setting) (m : Machine) (body : List NodeId) : Machine :=
  let outer := m.scope
  let (store, scope) := m.store.newScope (some outer)
  let m := { m with store := store.hoistFunctions e scope body }
  (m.push (.restoreScope outer)).setScope scope

/-- A property that is kept by what evaluating an expression is made of. -/
structure KeptByExpressions (e : Setting) (P : Machine → Prop) : Prop where
  setPc {m : Machine} (h : P m) (id : NodeId) : P (m.setPc id)
  goTo {m : Machine} (h : P m) {control : Control} (hc : control.isRegular = true) :
    P (m.goTo control)
  throwValue {m : Machine} (h : P m) (v : Value) : P (m.throwValue v)
  push {m : Machine} (h : P m) {p : Pending} (hp : p.isExpression = true) : P (m.push p)
  print {m : Machine} (h : P m) (line : String) : P (m.print line)
  withStore {m : Machine} (h : P m) {s : Store} (same : m.store.SameBindings s) :
    P { m with store := s }
  assign {m : Machine} (h : P m) {name : String} {owner : ScopeId}
    (target : m.store.assignTarget m.scope name = .ok owner) (v : Value) :
    P (m.define owner name v true)
  functionValue {m : Machine} (h : P m) {id : NodeId} {name : Option NodeId}
    {params : List NodeId} {body : NodeId}
    (kind : e.tree.kind id = .functionExpression name params body) :
    P (m.functionValue e id name params body)

namespace KeptByExpressions

variable {e : Setting} {P : Machine → Prop} (k : KeptByExpressions e P) {m : Machine}
include k

lemma give (h : P m) (v : Value) : P (m.give v) := k.goTo h rfl

lemma finish (h : P m) : P m.finish := k.goTo h rfl

lemma giveFrom (h : P m) {f : Store → Store × Value} (same : m.store.SameBindings (f m.store).1) :
    P (m.giveFrom f) := k.give (k.withStore h same) _

lemma throwFault (h : P m) (f : Fault) : P (m.throwFault f) :=
  k.throwValue (k.withStore h (.newError _ f.toError)) _

lemma evalThen (h : P m) (id : NodeId) {p : Pending} (hp : p.isExpression = true) :
    P (m.evalThen id p) := k.goTo (k.push h hp) rfl

lemma callBack (h : P m) (array : Ref) (callback : Value) (index : Nat) (before : List Value)
    {p : Pending} (hp : p.isExpression = true) {ending : Machine → Machine} (hend : P (ending m)) :
    P (m.callBack array callback index before p ending) := by
  simp only [Machine.callBack]
  split
  · exact k.goTo (k.push h hp) rfl
  · exact hend

lemma forEachFrom (h : P m) (array : Ref) (callback : Value) (index : Nat) :
    P (m.forEachFrom array callback index) :=
  k.callBack h array callback index [] rfl (k.give h .undefined)

lemma mapFrom (h : P m) (array : Ref) (callback : Value) (index : Nat) (done : List Value) :
    P (m.mapFrom array callback index done) :=
  k.callBack h array callback index [] rfl (k.giveFrom h (.newArray _ _))

lemma reduceFrom (h : P m) (array : Ref) (callback : Value) (index : Nat) (acc : Value) :
    P (m.reduceFrom array callback index acc) :=
  k.callBack h array callback index [acc] rfl (k.give h acc)

lemma iterate (h : P m) (method : ArrayMethod) (array : Ref) (args : List Value) :
    P (m.iterate method array args) := by
  cases method with
  | forEach => exact k.forEachFrom h array _ 0
  | map => exact k.mapFrom h array _ 0 []
  | reduce =>
    simp only [Machine.iterate]
    split
    · exact k.reduceFrom h array _ 0 _
    · split
      · exact k.reduceFrom h array _ 1 _
      · exact k.throwFault h _
  | _ => exact k.give h _

lemma callBuiltin (h : P m) (b : BoundBuiltin) (args : List Value) : P (m.callBuiltin b args) := by
  obtain ⟨builtin, receiver⟩ := b
  cases builtin with
  | log => exact k.give (k.print h _) _
  | construct kind =>
    simp only [Machine.callBuiltin]
    exact k.giveFrom h (.newError _ _)
  | array method =>
    simp only [Machine.callBuiltin]
    split
    · split
      · exact k.iterate h method _ args
      · exact k.giveFrom h (.callArrayMethod _ method _ args)
    · exact k.throwFault h _
  | string method =>
    simp only [Machine.callBuiltin]
    split
    · exact k.give h _
    · exact k.throwFault h _
  | _ => exact k.give h _

lemma readName (h : P m) (name : String) {next : Machine → Value → Machine}
    (hnext : ∀ v, P (next m v)) : P (m.readName name next) := by
  simp only [Machine.readName]
  split
  · exact hnext _
  · exact k.throwFault h _

lemma writeName (h : P m) (name : String) (v result : Value) : P (m.writeName name v result) := by
  rw [Machine.writeName_eq]
  split
  case h_1 owner target => exact k.give (k.assign h target v) result
  case h_2 => exact k.throwFault h _
  case h_3 => exact k.throwFault h _

lemma readMember (h : P m) (receiver : Value) (key : String) {next : Machine → Value → Machine}
    (hnext : ∀ {m' v}, P m' → P (next m' v)) : P (m.readMember receiver key next) := by
  simp only [Machine.readMember]
  split
  · exact hnext h
  · exact hnext (k.withStore h (.newBuiltin _ _ _))
  · exact k.throwFault h _

lemma writeMember (h : P m) (receiver : Value) (key : String) (v result : Value) :
    P (m.writeMember receiver key v result) := by
  simp only [Machine.writeMember]
  split
  · exact k.throwFault h _
  · exact k.give (k.withStore h (.setMember _ receiver key v)) result

lemma access (h : P m) (a : Access) (receiver : Value) (key : String) :
    P (m.access a receiver key) := by
  simp only [Machine.access]
  split
  · exact k.readMember (k.setPc h a.node) receiver key fun h => k.give h _
  · exact k.evalThen h _ rfl
  · exact k.readMember (k.setPc h a.node) receiver key fun h => k.evalThen h _ rfl
  · exact k.readMember (k.setPc h a.node) receiver key fun h => k.writeMember h receiver key _ _

lemma properties (h : P m) (done : Record) (ps : List NodeId) : P (m.properties e done ps) := by
  induction ps with
  | nil =>
    simp only [Machine.properties]
    exact k.giveFrom h (.newRecord _ _)
  | cons p rest ih =>
    simp only [Machine.properties]
    split
    · exact k.evalThen h _ rfl
    · exact ih

lemma elements (h : P m) (done : List Value) (ids : List NodeId) : P (m.elements done ids) := by
  cases ids with
  | nil =>
    simp only [Machine.elements]
    exact k.giveFrom h (.newArray _ _)
  | cons id rest => exact k.evalThen h id rfl

lemma assignment (h : P m) (id : NodeId) (op : AssignOp) (left right : NodeId) :
    P (m.assignment e id op left right) := by
  simp only [Machine.assignment]
  split
  · cases op with
    | assign => exact k.evalThen h right rfl
    | compound op => exact k.readName h _ fun v => k.evalThen h right rfl
  · exact k.evalThen h _ rfl
  · exact k.goTo h rfl

lemma update (h : P m) (id : NodeId) (op : UpdateOp) (before : Bool) (argument : NodeId) :
    P (m.update e id op before argument) := by
  simp only [Machine.update]
  split
  · exact k.readName h _ fun v => k.writeName h _ _ _
  · exact k.evalThen h _ rfl
  · exact k.give h _

lemma evalNode (h : P m) (id : NodeId) : P (Machine.evalNode e m id) := by
  have h := k.setPc h id
  simp only [Machine.evalNode]
  split
  case h_1 name _ => exact k.readName h name fun v => k.give h v
  case h_3 ids _ => exact k.elements h [] ids
  case h_4 ps _ => exact k.properties h .empty ps
  case h_5 name params body kind => exact k.functionValue h kind
  case h_6 op argument _ =>
    split
    · exact k.give h _
    · exact k.evalThen h argument rfl
  case h_7 op before argument _ => exact k.update h id op before argument
  case h_10 op left right _ => exact k.assignment h id op left right
  all_goals first | exact k.evalThen h _ rfl | exact k.give h _

lemma construct (h : P m) {f : Value} (hf : ∀ ref, f ≠ .function ref) (args : List Value)
    (callee : NodeId) : P (m.construct e f args callee) := by
  simp only [Machine.construct]
  split
  case h_1 ref => exact absurd rfl (hf ref)
  case h_2 ref =>
    split
    · exact k.callBuiltin h _ args
    · exact k.throwFault h _
  case h_3 => exact k.throwFault h _

lemma call (h : P m) {f : Value} (hf : ∀ ref, f ≠ .function ref) (args : List Value)
    (name : CalleeName) : P (m.call e f args name) := by
  simp only [Machine.call]
  split
  case h_1 ref => exact absurd rfl (hf ref)
  case h_2 ref => exact k.callBuiltin h _ args
  case h_3 => exact k.throwFault h _

lemma arguments (h : P m) (site : CallSite) (f : Value) (done : List Value) (ids : List NodeId)
    (hf : ids = [] → site.constructs = true → ∀ ref, f ≠ .function ref) :
    P (m.arguments e site f done ids) := by
  cases ids with
  | nil =>
    simp only [Machine.arguments]
    split
    case isTrue hc => exact k.construct (k.setPc h site.node) (hf rfl hc) _ _
    case isFalse => exact k.goTo (k.setPc h site.node) rfl
  | cons id rest => exact k.evalThen h id rfl

/-- An expression goes on with the value of a part of it. -/
lemma resumeValue (h : P m) (v : Value) {p : Pending} (hp : p.isExpression = true)
    (hf : ∀ ref, constructed? v p ≠ some (.function ref)) : P (Machine.resumeValue e m v p) := by
  cases p with
  | elements rest done => exact k.elements h _ rest
  | property key rest done => exact k.properties h _ rest
  | unary op => exact k.give h _
  | binaryLeft op right => exact k.evalThen h right rfl
  | binaryRight op left => exact k.give h _
  | logical op right =>
    cases op <;> simp only [Machine.resumeValue] <;> split
    all_goals first | exact k.give h v | exact k.goTo h rfl
  | conditional consequent alternate => exact k.goTo h rfl
  | assignName node name half => exact k.writeName (k.setPc h node) name _ _
  | accessObject a =>
    simp only [Machine.resumeValue]
    split
    · exact k.evalThen h _ rfl
    · exact k.access h a v _
  | accessKey a receiver => exact k.access h a receiver _
  | assignMember node receiver key half => exact k.writeMember (k.setPc h node) receiver key _ _
  | callee site args =>
    refine k.arguments h site v [] args fun hargs hc ref hv => hf ref ?_
    subst hargs hv
    exact if_pos hc
  | arguments site f rest done =>
    refine k.arguments h site f _ rest fun hrest hc ref hv => hf ref ?_
    subst hrest hv
    exact if_pos hc
  | construct =>
    simp only [Machine.resumeValue]
    split
    case h_4 => exact k.giveFrom h (.newRecord _ .empty)
    all_goals exact k.give h _
  | forEach array callback index => exact k.forEachFrom h array callback _
  | map array callback index done => exact k.mapFrom h array callback _ _
  | reduce array callback index => exact k.reduceFrom h array callback _ v
  | _ => cases hp

end KeptByExpressions

/-- A property that is kept by what executing a statement is made of, where names that satisfy
`Bindable` are declared. -/
structure KeptByStatements (e : Setting) (Bindable : String → Prop) (P : Machine → Prop) : Prop
    extends KeptByExpressions e P where
  declared : ∀ d nameId init, e.tree.kind d = .variableDeclarator nameId init →
    Bindable (e.tree.nameOf nameId)
  goToAny {m : Machine} (h : P m) {control : Control} (hc : control.frames? = none) :
    P (m.goTo control)
  halt {m : Machine} (h : P m) (reason : HaltReason)
    (hr : reason = .breakpoint → ∃ id, haltsAt e id = true) : P (m.halt reason)
  pushAny {m : Machine} (h : P m) {p : Pending} (hp : p.unwinds = false)
    (hd : ∀ kind d name rest, p = .declare kind d name rest → Bindable name) : P (m.push p)
  define {m : Machine} (h : P m) {name : String} (hn : Bindable name) (v : Value)
    (isMutable : Bool) : P (m.define m.scope name v isMutable)
  enterBlock {m : Machine} (h : P m) (body : List NodeId) : P (m.enterBlock e body)

namespace KeptByStatements

variable {e : Setting} {Bindable : String → Prop} {P : Machine → Prop}
  (k : KeptByStatements e Bindable P) {m : Machine}
include k

lemma evalBefore (h : P m) (id : NodeId) {p : Pending} (hp : p.unwinds = false)
    (hd : ∀ kind d name rest, p = .declare kind d name rest → Bindable name) :
    P (m.evalThen id p) := k.goTo (k.pushAny h hp hd) rfl

lemma execThen (h : P m) (id : NodeId) {p : Pending} (hp : p.unwinds = false)
    (hd : ∀ kind d name rest, p = .declare kind d name rest → Bindable name) :
    P (m.execThen id p) := k.goToAny (k.pushAny h hp hd) rfl

lemma runStatements (h : P m) (ids : List NodeId) : P (m.runStatements ids) := by
  cases ids with
  | nil => exact k.finish h
  | cons id rest => exact k.execThen h id rfl nofun

lemma runBody (h : P m) (body : NodeId) : P (Machine.runBody e body m) := by
  simp only [Machine.runBody]
  split
  case isTrue hh => exact k.halt h _ fun _ => ⟨body, hh⟩
  case isFalse => exact k.runStatements h _

lemma declare (h : P m) (kind : VarKind) (ds : List NodeId) : P (m.declare e kind ds) := by
  induction ds generalizing m with
  | nil => exact k.finish h
  | cons d rest ih =>
    simp only [Machine.declare]
    split
    case h_1 nameId init hk =>
      have named := k.declared d nameId init hk
      split
      · refine k.evalBefore h _ rfl fun kind' d' name rest' hp => ?_
        cases hp
        exact named
      · split
        · exact ih (k.define h named _ _)
        · exact ih h
    case h_2 => exact ih h

lemma bindDeclared (h : P m) (kind : VarKind) (declarator : NodeId) {name : String}
    (hn : Bindable name) (v : Value) : P (m.bindDeclared kind declarator name v) := by
  rw [Machine.bindDeclared_eq]
  split
  · exact k.define h hn _ _
  · split
    case h_1 owner target => exact k.assign (k.setPc h declarator) target v
    case h_2 => exact k.define (k.setPc h declarator) hn v true

lemma runBlock (h : P m) (body : List NodeId) : P (m.runBlock e body) := by
  simp only [Machine.runBlock]
  split
  · exact k.runStatements (k.enterBlock h body) body
  · exact k.runStatements h body

lemma testFor (h : P m) (p : ForParts) : P (m.testFor p) := by
  simp only [Machine.testFor]
  split
  · exact k.evalBefore h _ rfl nofun
  · exact k.execThen h _ rfl nofun

lemma updateFor (h : P m) (p : ForParts) : P (m.updateFor p) := by
  simp only [Machine.updateFor]
  split
  · exact k.evalBefore h _ rfl nofun
  · exact k.testFor h p

lemma startFor (h : P m) (init : Option NodeId) (p : ForParts) : P (m.startFor e init p) := by
  simp only [Machine.startFor]
  split
  · exact k.testFor h p
  · split
    · exact k.declare (k.pushAny (k.setPc h _) (p := .forInit p) rfl nofun) _ _
    · exact k.evalBefore h _ rfl nofun

lemma runFor (h : P m) (init : Option NodeId) (p : ForParts) : P (m.runFor e init p) := by
  simp only [Machine.runFor]
  split
  · exact k.startFor (k.enterBlock h []) init p
  · exact k.startFor h init p

lemma execNode (h : P m) (id : NodeId) : P (Machine.execNode e m id) := by
  have h := k.setPc h id
  simp only [Machine.execNode]
  split
  case isTrue hh => exact k.halt h _ fun _ => ⟨id, hh⟩
  case isFalse =>
    split
    case h_1 kind ds _ => exact k.declare h kind ds
    case h_5 body _ => exact k.runBlock h body
    case h_7 init test update body _ => exact k.runFor h init _
    case h_14 =>
      split
      · exact k.halt h _ nofun
      · exact k.finish h
    all_goals first
      | exact k.finish h
      | exact k.evalBefore h _ rfl nofun
      | exact k.goToAny h rfl

lemma resumeValue (h : P m) (v : Value) {p : Pending} (hp : p.unwinds = false)
    (hd : ∀ kind d name rest, p = .declare kind d name rest → Bindable name)
    (hf : ∀ ref, constructed? v p ≠ some (.function ref)) : P (Machine.resumeValue e m v p) := by
  cases p with
  | leave | restoreScope => cases hp
  | discard => exact k.finish h
  | ifTest consequent alternate =>
    simp only [Machine.resumeValue]
    split
    · exact k.goToAny h rfl
    · split
      · exact k.goToAny h rfl
      · exact k.finish h
  | whileTest test body =>
    simp only [Machine.resumeValue]
    split
    · exact k.execThen h body rfl nofun
    · exact k.finish h
  | forInit p => exact k.testFor h p
  | forTest p =>
    simp only [Machine.resumeValue]
    split
    · exact k.execThen h p.body rfl nofun
    · exact k.finish h
  | forUpdate p => exact k.testFor h p
  | returnValue => exact k.goToAny h rfl
  | throwValue node => exact k.throwValue (k.setPc h node) v
  | declare kind declarator name rest =>
    exact k.declare (k.bindDeclared h kind declarator (hd kind declarator name rest rfl) v) _ _
  | statements | whileBody | forBody => exact k.give h v
  | _ => exact k.toKeptByExpressions.resumeValue h v rfl hf

lemma resumeDone (h : P m) {p : Pending} (hp : p.unwinds = false) : P (m.resumeDone p) := by
  cases p with
  | leave | restoreScope => cases hp
  | statements rest => exact k.runStatements h rest
  | whileBody test body => exact k.evalBefore h test rfl nofun
  | forInit p => exact k.testFor h p
  | forBody p => exact k.updateFor h p
  | _ => exact k.finish h

lemma resumeAbrupt (h : P m) {a : Abrupt} (passes : P (m.goTo (.abrupt a))) {p : Pending}
    (hp : p.unwinds = false) : P (m.resumeAbrupt a p) := by
  cases p with
  | leave | restoreScope => cases hp
  | whileBody test body =>
    cases a with
    | broken => exact k.finish h
    | continued => exact k.evalBefore h test rfl nofun
    | _ => exact passes
  | forBody p =>
    cases a with
    | broken => exact k.finish h
    | continued => exact k.updateFor h p
    | _ => exact passes
  | _ => exact passes

end KeptByStatements

end Machine

end ScriptDebugger
