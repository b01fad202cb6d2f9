import ScriptDebugger.Proofs.Machine.Nested
import ScriptDebugger.Proofs.Machine.Sound

/-!
# Steps inside one function more

Each thing that a step may do keeps two machines together, one of which runs
inside one function more. So a step does, until nothing but the end of the
script's activation is left to do (`Machine.Nests.step`).
-/

namespace ScriptDebugger

namespace Machine.Nests

variable {n : Nesting} {m m' : Machine} {e e' : Setting} {o : NodeId}

section

variable (h : m.Nests n m')
include h

lemma lookup? (name : String) : m'.lookup? name = (m.lookup? name).map Value.nested := by
  rw [Machine.lookup?, h.store, h.scope, Store.lookup?_nested n h.ready.one_le h.ready.older]
  rfl

lemma readName (name : String) {next next' : Machine → Value → Machine}
    (hnext : ∀ v, (next m v).Nests n (next' m' v.nested)) :
    (m.readName name next).Nests n (m'.readName name next') := by
  simp only [Machine.readName, h.lookup?]
  cases m.lookup? name with
  | none => exact h.throwFault _
  | some v => exact hnext v

lemma writeName (name : String) (v result : Value) :
    (m.writeName name v result).Nests n (m'.writeName name v.nested result.nested) := by
  simp only [Machine.writeName_eq, h.store, h.scope,
    Store.assignTarget_nested n h.ready.one_le h.ready.older]
  cases m.store.assignTarget m.scope name with
  | ok owner => exact (h.define owner name v true).give result
  | error fault => cases fault <;> exact h.throwFault _

lemma readMember (receiver : Value) (key : String) {next next' : Machine → Value → Machine}
    (hnext : ∀ {m m' : Machine} (v : Value), m.Nests n m' →
      (next m v).Nests n (next' m' v.nested)) :
    (m.readMember receiver key next).Nests n (m'.readMember receiver.nested key next') := by
  simp only [Machine.readMember, h.store, Store.getMember_nested]
  cases m.store.getMember receiver key with
  | error f => exact h.throwFault f
  | ok member =>
    cases member with
    | plain v => exact hnext v h
    | method builtin =>
      have made : (m.store.nested n).newBuiltin builtin (some receiver.nested) =
          ((m.store.newBuiltin builtin (some receiver)).1.nested n,
            (m.store.newBuiltin builtin (some receiver)).2.nested) :=
        m.store.newBuiltin_nested n builtin (some receiver)
      simp only [Except.map, Member.nested, made]
      exact hnext _ (h.withStore rfl (h.ready.of_sameBindings (.newBuiltin _ builtin (some receiver))))

lemma writeMember (receiver : Value) (key : String) (v result : Value) :
    (m.writeMember receiver key v result).Nests n
      (m'.writeMember receiver.nested key v.nested result.nested) := by
  simp only [Machine.writeMember, h.store, Store.setMemberFault?_nested]
  cases m.store.setMemberFault? receiver key with
  | some f => exact h.throwFault f
  | none =>
    exact (h.withStore (m.store.setMember_nested n receiver key v).symm
      (h.ready.of_sameBindings (.setMember _ receiver key v))).give result

lemma completed (half : HalfApplied) (right : Value) :
    m'.completed (nestedHalf half) right.nested = (m.completed half right).nested := by
  cases half with
  | none => rfl
  | some half =>
    simp only [Machine.completed, nestedHalf, Option.map_some, h.store]
    exact m.store.evalBinary_nested n half.1 half.2 right

lemma access (a : Access) (receiver : Value) (key : String) :
    (m.access a receiver key).Nests n (m'.access a receiver.nested key) := by
  simp only [Machine.access]
  split
  · exact (h.setPc a.node).readMember receiver key fun v h => h.give v
  · exact h.evalThen _ (.assignMember a.node receiver key none)
  · rename_i op right _
    exact (h.setPc a.node).readMember receiver key fun current h =>
      h.evalThen right (.assignMember a.node receiver key (some (op, current)))
  · rename_i op before _
    refine (h.setPc a.node).readMember receiver key fun {m m'} current h => ?_
    simp only [h.store, Store.evalUpdate_nested]
    exact h.writeMember receiver key _ _

lemma callBack (array : Ref) (callback : Value) (index : Nat) (before : List Value) (p : Pending)
    {ending ending' : Machine → Machine} (hending : (ending m).Nests n (ending' m')) :
    (m.callBack array callback index before p ending).Nests n
      (m'.callBack array callback.nested index (before.map Value.nested) p.nested ending') := by
  simp only [Machine.callBack, h.store, Store.array_nested, Array.getElem?_map]
  cases (m.store.array array)[index]? with
  | none => exact hending
  | some item =>
    have called := (h.push p).goTo (.call callback
      (before ++ [item, .number (Float.ofNat index), .array array]) (.shown callback))
    simp only [Control.nested, List.map_append] at called
    exact called

/-- The values met so far, last first, as a new array. -/
lemma giveReversed (done : List Value) :
    (m.giveFrom fun s => s.newArray done.reverse.toArray).Nests n
      (m'.giveFrom fun s => s.newArray (done.map Value.nested).reverse.toArray) := by
  have items := m.store.newArray_nested n done.reverse.toArray
  refine h.giveFrom ?_ (h.ready.of_sameBindings (.newArray _ _))
  simpa using items

lemma forEachFrom (array : Ref) (callback : Value) (index : Nat) :
    (m.forEachFrom array callback index).Nests n (m'.forEachFrom array callback.nested index) :=
  h.callBack array callback index [] (.forEach array callback index) (h.give .undefined)

lemma mapFrom (array : Ref) (callback : Value) (index : Nat) (done : List Value) :
    (m.mapFrom array callback index done).Nests n
      (m'.mapFrom array callback.nested index (done.map Value.nested)) :=
  h.callBack array callback index [] (.map array callback index done) (h.giveReversed done)

lemma reduceFrom (array : Ref) (callback : Value) (index : Nat) (acc : Value) :
    (m.reduceFrom array callback index acc).Nests n
      (m'.reduceFrom array callback.nested index acc.nested) :=
  h.callBack array callback index [acc] (.reduce array callback index) (h.give acc)

lemma iterate (method : ArrayMethod) (array : Ref) (args : List Value) :
    (m.iterate method array args).Nests n (m'.iterate method array (args.map Value.nested)) := by
  cases method with
  | forEach =>
    simp only [Machine.iterate, argument_nested]
    exact h.forEachFrom array _ 0
  | map =>
    simp only [Machine.iterate, argument_nested]
    exact h.mapFrom array _ 0 []
  | reduce =>
    simp only [Machine.iterate, argument_nested, List.length_map, h.store, Store.array_nested,
      Array.getElem?_map]
    split
    · exact h.reduceFrom array _ 0 _
    · cases (m.store.array array)[0]? with
      | none => exact h.throwFault _
      | some first => exact h.reduceFrom array (argument args 0) 1 first
  | _ => exact h.give .undefined

lemma callBuiltin (b : BoundBuiltin) (args : List Value) :
    (m.callBuiltin b args).Nests n (m'.callBuiltin b.nested (args.map Value.nested)) := by
  obtain ⟨builtin, receiver⟩ := b
  cases builtin with
  | log =>
    simp only [Machine.callBuiltin, BoundBuiltin.nested, h.store, List.map_map, Function.comp_def,
      Store.inspect_nested]
    exact (h.print _).give .undefined
  | construct kind =>
    simp only [Machine.callBuiltin, BoundBuiltin.nested, argument_nested]
    refine h.giveFrom ?_ (h.ready.of_sameBindings (.newError _ _))
    rw [Store.constructError_nested]
    rfl
  | array method =>
    cases receiver with
    | none => exact h.throwFault _
    | some receiver =>
      cases receiver with
      | array ref =>
        simp only [Machine.callBuiltin, BoundBuiltin.nested, Option.map_some, Value.nested]
        split
        · exact h.iterate method ref args
        · exact h.giveFrom (m.store.callArrayMethod_nested n method ref args)
            (h.ready.of_sameBindings (.callArrayMethod _ method ref args))
      | _ => exact h.throwFault _
  | string method =>
    cases receiver with
    | none => exact h.throwFault _
    | some receiver =>
      cases receiver with
      | string t =>
        have same : (Value.string t).nested = .string t := rfl
        simp only [Machine.callBuiltin, BoundBuiltin.nested, Option.map_some, same, h.store,
          argument_nested, Store.callStringMethod_nested]
        exact h.give _
      | _ => exact h.throwFault _
  | _ =>
    simp only [Machine.callBuiltin, BoundBuiltin.nested, h.store, argument_nested,
      Store.toNumber_nested, Store.foldNumbers_nested]
    exact h.give (.number _)

end

section

variable (he : e.Nests n e') (h : m.Nests n m')
include h

lemma enter (a : Activation) {next next' : Machine → Machine}
    (hnext : ∀ {m m' : Machine}, m.Nests n m' → (next m).Nests n (next' m')) :
    (m.enter a next).Nests n (m'.enter a.nested next') := by
  simp only [Machine.enter, h.calls, CallStack.push?_nested]
  cases m.calls.push? a with
  | none => exact h.throwFault _
  | some calls =>
    have pushed : Nests n { m with calls := calls } { m' with calls := calls.nested } :=
      { h with calls := rfl }
    exact hnext pushed

include he

lemma hoist (scope : ScopeId) {body : List NodeId} (hbody : ∀ id ∈ body, e.Inside id) :
    Nests n { m with store := m.store.hoist e scope body }
      { m' with store := m'.store.hoist e' (nestedScope scope) body } := by
  refine h.withStore ?_ (h.ready.hoist e scope body)
  rw [h.store, Store.nested_hoist he h.ready.one_le scope hbody]

lemma runBody {body : NodeId} (hbody : e.Inside body) :
    (Machine.runBody e body m).Nests n (Machine.runBody e' body m') := by
  simp only [Machine.runBody, he.quiet, he.quiet', he.blockBody hbody]
  exact h.runStatements _

/-- A function does the same wherever it stands. -/
lemma callClosure {c : Closure} (hscope : c.scope < m.store.scopes.size)
    (hbody : e.Inside c.body) (span : Span) (args : List Value) :
    (m.callClosure e c args).Nests n
      (m'.callClosure e' { c with scope := nestedScope c.scope, span }
        (args.map Value.nested)) := by
  have opened := h.ready.newScope hscope
  have made := Store.newScope_nested n h.ready.size c.scope
  obtain ⟨s, scope, hnew⟩ : ∃ s scope, m.store.newScope (some c.scope) = (s, scope) := ⟨_, _, rfl⟩
  rw [hnew] at opened made
  have bound := h.withStore (Store.nested_bindParams opened.one_le scope c.params args).symm
    (opened.of_same (.bindParams s scope c.params args))
  have next {m m' : Machine} (h : m.Nests n m') :
      Nests n
        (Machine.runBody e c.body (Machine.push
          { m with store := m.store.hoist e scope (e.tree.blockBody c.body) } .leave))
        (Machine.runBody e' c.body (Machine.push
          { m' with store := m'.store.hoist e' (nestedScope scope) (e.tree.blockBody c.body) }
          .leave)) :=
    ((h.hoist he scope (he.inside_blockBody hbody)).push .leave).runBody he hbody
  have entered := bound.enter ⟨c.body, scope, c.name⟩ next
  simp only [Machine.callClosure, enterFunction, hnew, h.store, made, he.blockBody hbody]
  exact entered

lemma call (hw : e.tree.WellFormed) (inScope : m.Scoped e) {id : NodeId} (hid : e.Inside id)
    (f : Value) (args : List Value) {name : CalleeName} (hname : name.At e) :
    (Machine.call e m f args name).Nests n
      (Machine.call e' m' f.nested (args.map Value.nested) name.nested) := by
  have text : calleeText e' m' name.nested = calleeText e m name := by
    cases name with
    | source id => exact he.text id hname
    | shown v =>
      simp only [CalleeName.nested, calleeText, h.store, Store.inspect_nested]
  cases f with
  | function ref =>
    obtain ⟨span, hclosure⟩ := m.store.closure_nested n ref
    simp only [Machine.call, Value.nested, h.store, hclosure]
    exact h.callClosure he (inScope.store.closure ref).1
      (inScope.store.inside_body hw ref hid) span args
  | builtin ref =>
    simp only [Machine.call, Value.nested, h.store, Store.builtin_nested]
    exact h.callBuiltin _ args
  | _ =>
    simp only [Machine.call, Value.nested, text]
    exact h.throwFault _

lemma construct (hw : e.tree.WellFormed) (inScope : m.Scoped e) {callee : NodeId}
    (hcallee : e.Inside callee) (f : Value) (args : List Value) :
    (m.construct e f args callee).Nests n
      (m'.construct e' f.nested (args.map Value.nested) callee) := by
  have text := he.text callee hcallee
  cases f with
  | function ref =>
    obtain ⟨span, hclosure⟩ := m.store.closure_nested n ref
    have entered := (h.push .construct).callClosure he (inScope.store.closure ref).1
      (inScope.store.inside_body hw ref hcallee) span args
    simp only [Machine.construct, Value.nested, h.store, hclosure]
    exact entered
  | builtin ref =>
    simp only [Machine.construct, Value.nested, h.store, Store.builtin_nested,
      BoundBuiltin.nested, text]
    split
    · exact h.callBuiltin _ args
    · exact h.throwFault _
  | _ =>
    simp only [Machine.construct, Value.nested, text]
    exact h.throwFault _

end

section

variable (h : m.Nests n m')
include h

lemma elements (done : List Value) (ids : List NodeId) :
    (m.elements done ids).Nests n (m'.elements (done.map Value.nested) ids) := by
  cases ids with
  | nil => exact h.giveReversed done
  | cons id rest => exact h.evalThen id (.elements rest done)

variable (he : e.Nests n e')
include he

lemma properties (done : Record) {ps : List NodeId} (hps : ∀ p ∈ ps, e.Inside p) :
    (m.properties e done ps).Nests n (m'.properties e' done.nested ps) := by
  induction ps with
  | nil =>
    exact h.giveFrom (m.store.newRecord_nested n done) (h.ready.of_sameBindings (.newRecord _ done))
  | cons p rest ih =>
    obtain ⟨hp, hrest⟩ := List.forall_mem_cons.mp hps
    simp only [Machine.properties, he.kind p hp]
    cases e.tree.kind p with
    | property key value => exact h.evalThen value (.property key rest done)
    | _ => exact ih hrest

lemma arguments (hw : e.tree.WellFormed) (inScope : m.Scoped e) {site : CallSite}
    (hsite : e.Inside site.callee) (f : Value) (done : List Value) (ids : List NodeId) :
    (m.arguments e site f done ids).Nests n
      (m'.arguments e' site f.nested (done.map Value.nested) ids) := by
  cases ids with
  | nil =>
    have placed := h.setPc site.node
    simp only [Machine.arguments, ← List.map_reverse]
    split
    · exact placed.construct he hw (inScope.setPc site.node) hsite f done.reverse
    · exact placed.goTo (.call f done.reverse (.source site.callee))
  | cons id rest => exact h.evalThen id (.arguments site f rest done)

lemma functionValue (inScope : m.Scoped e) {id : NodeId} (hid : e.Inside id) {name : Option NodeId}
    (hname : ∀ c, name = some c → e.Inside c) {params : List NodeId}
    (hparams : ∀ p ∈ params, e.Inside p) (body : NodeId) :
    (m.functionValue e id name params body).Nests n
      (m'.functionValue e' id name params body) := by
  have named : (name.bind fun c => (e'.tree.kind c).name?) =
      name.bind fun c => (e.tree.kind c).name? := by
    cases name with
    | none => rfl
    | some c => simp only [Option.bind_some, he.kind c (hname c rfl)]
  simp only [Machine.functionValue, named, h.scope]
  cases name.bind fun c => (e.tree.kind c).name? with
  | none =>
    refine h.giveFrom ?_ (h.ready.newClosure _)
    rw [he.closure hid none hparams, Store.newClosure_nested]
  | some name =>
    have opened := h.ready.newScope inScope.scope_lt
    obtain ⟨s, scope, hnew⟩ : ∃ s scope, m.store.newScope (some m.scope) = (s, scope) :=
      ⟨_, _, rfl⟩
    have made := Store.newScope_nested n h.ready.size m.scope
    rw [hnew] at opened made
    have closed := opened.newClosure (e.closure id (some name) params body scope)
    refine h.giveFrom ?_ ?_
    · simp only [hnew, made, he.closure hid (some name) hparams, Store.newClosure_nested,
        Store.nested_define n closed.one_le]
    · simp only [hnew]
      exact closed.of_same (.define ..)

lemma assignment {id : NodeId} (hid : e.Inside id) {op : AssignOp} {left right : NodeId}
    (hk : e.tree.kind id = .assignmentExpression op left right) :
    (m.assignment e id op left right).Nests n (m'.assignment e' id op left right) := by
  have hleft : e.Inside left :=
    he.inside_child hid (by simp [Tree.children, hk, NodeKind.children])
  simp only [Machine.assignment, he.kind left hleft]
  cases e.tree.kind left with
  | identifier name =>
    cases op with
    | assign => exact h.evalThen right (.assignName id name none)
    | compound op =>
      exact h.readName name fun current =>
        h.evalThen right (.assignName id name (some (op, current)))
  | memberExpression object key computed =>
    exact h.evalThen object (.accessObject ⟨id, key, computed, .assign op right⟩)
  | _ => exact h.goTo (.eval right)

lemma update {id : NodeId} (hid : e.Inside id) {op : UpdateOp} {before : Bool} {argument : NodeId}
    (hk : e.tree.kind id = .updateExpression op before argument) :
    (m.update e id op before argument).Nests n (m'.update e' id op before argument) := by
  have hargument : e.Inside argument :=
    he.inside_child hid (by simp [Tree.children, hk, NodeKind.children])
  simp only [Machine.update, he.kind argument hargument]
  cases e.tree.kind argument with
  | identifier name =>
    refine h.readName name fun current => ?_
    simp only [h.store, Store.evalUpdate_nested]
    exact h.writeName name _ _
  | memberExpression object key computed =>
    exact h.evalThen object (.accessObject ⟨id, key, computed, .update op before⟩)
  | _ => exact h.give (.number Binary64.nan)

lemma evalNode (inScope : m.Scoped e) {id : NodeId} (hid : e.Inside id) :
    (Machine.evalNode e m id).Nests n (Machine.evalNode e' m' id) := by
  have placed := h.setPc id
  have child {c : NodeId} (hc : c ∈ (e.tree.kind id).children) : e.Inside c :=
    he.inside_child hid hc
  simp only [Machine.evalNode, he.kind id hid]
  cases hk : e.tree.kind id with
  | identifier name => exact placed.readName name fun v => placed.give v
  | literal l =>
    have same := placed.give (.ofLiteral l)
    rwa [Value.nested_ofLiteral] at same
  | arrayExpression ids => exact placed.elements [] ids
  | objectExpression ps =>
    exact placed.properties he .empty fun p hp => child (by simp [hk, NodeKind.children, hp])
  | functionExpression name params body =>
    exact placed.functionValue he (inScope.setPc id) hid
      (fun c hc => child (by simp [hk, NodeKind.children, hc]))
      (fun p hp => child (by simp [hk, NodeKind.children, hp])) body
  | unaryExpression op argument =>
    have hargument : e.Inside argument := child (by simp [hk, NodeKind.children])
    have asks : Machine.asksUnbound e' (m'.setPc id) op argument =
        Machine.asksUnbound e (m.setPc id) op argument := by
      simp only [Machine.asksUnbound, he.kind argument hargument, placed.lookup?,
        Option.isNone_map]
    simp only [asks]
    split
    · exact placed.give (.string "undefined")
    · exact placed.evalThen argument (.unary op)
  | updateExpression op before argument => exact placed.update he hid hk
  | binaryExpression op left right => exact placed.evalThen left (.binaryLeft op right)
  | logicalExpression op left right => exact placed.evalThen left (.logical op right)
  | assignmentExpression op left right => exact placed.assignment he hid hk
  | conditionalExpression test consequent alternate =>
    exact placed.evalThen test (.conditional consequent alternate)
  | callExpression callee args => exact placed.evalThen callee (.callee ⟨id, callee, false⟩ args)
  | newExpression callee args => exact placed.evalThen callee (.callee ⟨id, callee, true⟩ args)
  | memberExpression object key computed =>
    exact placed.evalThen object (.accessObject ⟨id, key, computed, .read⟩)
  | _ => exact placed.give .undefined

lemma declare (kind : VarKind) {ds : List NodeId} (hds : ∀ d ∈ ds, e.Inside d) :
    (m.declare e kind ds).Nests n (m'.declare e' kind ds) := by
  induction ds generalizing m m' with
  | nil => exact h.finish
  | cons d rest ih =>
    obtain ⟨hd, hrest⟩ := List.forall_mem_cons.mp hds
    simp only [Machine.declare, he.kind d hd]
    cases hk : e.tree.kind d with
    | variableDeclarator nameId init =>
      have hname : e.Inside nameId :=
        he.inside_child hd (by simp [Tree.children, hk, NodeKind.children])
      simp only [he.nameOf hname]
      cases init with
      | some value => exact h.evalThen value (.declare kind d (e.tree.nameOf nameId) rest)
      | none =>
        dsimp only
        split
        · rw [h.scope]
          exact ih (h.define m.scope (e.tree.nameOf nameId) .undefined _) hrest
        · exact ih h hrest
    | _ => exact ih h hrest

omit he in
lemma bindDeclared (kind : VarKind) (declarator : NodeId) (name : String) (v : Value) :
    (m.bindDeclared kind declarator name v).Nests n
      (m'.bindDeclared kind declarator name v.nested) := by
  have placed := h.setPc declarator
  simp only [Machine.bindDeclared_eq]
  split
  · rw [h.scope]
    exact h.define m.scope name v _
  · rw [placed.scope, placed.store,
      Store.assignTarget_nested n placed.ready.one_le placed.ready.older]
    cases (m.setPc declarator).store.assignTarget (m.setPc declarator).scope name with
    | ok owner => exact placed.define owner name v true
    | error fault => exact placed.define (m.setPc declarator).scope name v true

omit he in
/-- A scope inside the current one, until an entry goes back. -/
lemma inner (inScope : m.Scoped e) :
    Nests n
      (Machine.setScope (Machine.push { m with store := (m.store.newScope (some m.scope)).1 }
        (.restoreScope m.scope)) (m.store.newScope (some m.scope)).2)
      (Machine.setScope (Machine.push { m' with store := (m'.store.newScope (some m'.scope)).1 }
        (.restoreScope m'.scope)) (m'.store.newScope (some m'.scope)).2) := by
  have made := Store.newScope_nested n h.ready.size m.scope
  rw [h.scope, h.store, made]
  exact ((h.withStore rfl (h.ready.newScope inScope.scope_lt)).push
    (.restoreScope m.scope)).setScope _

lemma runBlock (inScope : m.Scoped e) {body : List NodeId} (hbody : ∀ id ∈ body, e.Inside id) :
    (m.runBlock e body).Nests n (m'.runBlock e' body) := by
  simp only [Machine.runBlock, he.declaresLexically hbody]
  split
  · have opened := h.ready.newScope inScope.scope_lt
    have made := Store.newScope_nested n h.ready.size m.scope
    rw [h.scope, h.store, made, ← Store.nested_hoistFunctions he opened.one_le _ hbody]
    have hoisted := h.withStore rfl
      (opened.hoistFunctions e (m.store.newScope (some m.scope)).2 body)
    exact ((hoisted.push (.restoreScope m.scope)).setScope _).runStatements body
  · exact h.runStatements body

omit he

lemma testFor (p : ForParts) : (m.testFor p).Nests n (m'.testFor p) := by
  simp only [Machine.testFor]
  split
  · exact h.evalThen _ (.forTest p)
  · exact h.execThen p.body (.forBody p)

lemma updateFor (p : ForParts) : (m.updateFor p).Nests n (m'.updateFor p) := by
  simp only [Machine.updateFor]
  split
  · exact h.evalThen _ (.forUpdate p)
  · exact h.testFor p

include he

lemma startFor {init : Option NodeId} (hinit : ∀ id, init = some id → e.Inside id) (p : ForParts) :
    (m.startFor e init p).Nests n (m'.startFor e' init p) := by
  cases init with
  | none => exact h.testFor p
  | some id =>
    have hid := hinit id rfl
    simp only [Machine.startFor, he.kind id hid]
    cases hk : e.tree.kind id with
    | variableDeclaration kind ds =>
      refine ((h.setPc id).push (.forInit p)).declare he kind fun d hd => ?_
      exact he.inside_child hid (by simp [Tree.children, hk, NodeKind.children, hd])
    | _ => exact h.evalThen id (.forInit p)

lemma runFor (inScope : m.Scoped e) {init : Option NodeId}
    (hinit : ∀ id, init = some id → e.Inside id) (p : ForParts) :
    (m.runFor e init p).Nests n (m'.runFor e' init p) := by
  simp only [Machine.runFor, he.lexicalInit hinit]
  split
  · exact (h.inner inScope).startFor he hinit p
  · exact h.startFor he hinit p

lemma execNode (inScope : m.Scoped e) {id : NodeId} (hid : e.Inside id) :
    (Machine.execNode e m id).Nests n (Machine.execNode e' m' id) := by
  have placed := h.setPc id
  have child {c : NodeId} (hc : c ∈ (e.tree.kind id).children) : e.Inside c :=
    he.inside_child hid hc
  simp only [Machine.execNode, he.quiet, he.quiet', he.kind id hid, Bool.false_eq_true,
    if_false]
  cases hk : e.tree.kind id with
  | variableDeclaration kind ds =>
    exact placed.declare he kind fun d hd => child (by simp [hk, NodeKind.children, hd])
  | functionDeclaration name params body => exact placed.finish
  | emptyStatement => exact placed.finish
  | expressionStatement expression => exact placed.evalThen expression .discard
  | blockStatement body =>
    exact placed.runBlock he (inScope.setPc id) fun s hs =>
      child (by simp [hk, NodeKind.children, hs])
  | ifStatement test consequent alternate =>
    exact placed.evalThen test (.ifTest consequent alternate)
  | forStatement init test update body =>
    have inner (c : NodeId) (hc : init = some c) : e.Inside c :=
      child (by simp [hk, NodeKind.children, hc])
    exact placed.runFor he (inScope.setPc id) inner ⟨test, update, body⟩
  | whileStatement test body => exact placed.evalThen test (.whileTest test body)
  | returnStatement argument =>
    cases argument with
    | none => exact placed.goTo (.abrupt (.returned .undefined))
    | some argument => exact placed.evalThen argument .returnValue
  | throwStatement argument => exact placed.evalThen argument (.throwValue id)
  | breakStatement => exact placed.goTo (.abrupt .broken)
  | continueStatement => exact placed.goTo (.abrupt .continued)
  | debuggerStatement =>
    simp only [he.suspends id hk]
    split
    · exact placed.halt .debuggerStatement
    · exact placed.finish
  | _ => exact placed.evalThen id .discard

lemma resumeValue (hw : e.tree.WellFormed) (inScope : m.Scoped e) {p : Pending} (hp : p.At e o)
    (v : Value) : (m.resumeValue e v p).Nests n (m'.resumeValue e' v.nested p.nested) := by
  cases p with
  | elements rest done => exact h.elements (v :: done) rest
  | property key rest done =>
    have extended := h.properties he (done.set key v) fun p hr => (hp p hr).inside
    rwa [Record.nested_set] at extended
  | unary op =>
    simp only [Machine.resumeValue, Pending.nested, h.store, Store.evalUnary_nested]
    exact h.give _
  | binaryLeft op right => exact h.evalThen right (.binaryRight op v)
  | binaryRight op left =>
    simp only [Machine.resumeValue, Pending.nested, h.store, Store.evalBinary_nested]
    exact h.give _
  | logical op right =>
    simp only [Machine.resumeValue, Pending.nested, Value.isTruthy_nested]
    cases op <;> dsimp only <;> split
    all_goals first | exact h.give v | exact h.goTo (.eval right)
  | conditional consequent alternate =>
    simp only [Machine.resumeValue, Pending.nested, Value.isTruthy_nested]
    exact h.goTo (.eval _)
  | assignName node name half =>
    simp only [Machine.resumeValue, Pending.nested, h.completed]
    exact (h.setPc node).writeName name _ _
  | accessObject a =>
    simp only [Machine.resumeValue, Pending.nested]
    split
    · exact h.evalThen a.key (.accessKey a v)
    · rw [he.nameOf hp.key]
      exact h.access a v _
  | accessKey a receiver =>
    simp only [Machine.resumeValue, Pending.nested, h.store, Store.display_nested]
    exact h.access a receiver _
  | assignMember node receiver key half =>
    simp only [Machine.resumeValue, Pending.nested, h.completed]
    exact (h.setPc node).writeMember receiver key _ _
  | callee site args => exact h.arguments he hw inScope hp.1.callee v [] args
  | arguments site f rest done => exact h.arguments he hw inScope hp.1.callee f (v :: done) rest
  | construct =>
    cases v with
    | object ref => exact h.give (.object ref)
    | array ref => exact h.give (.array ref)
    | error ref => exact h.give (.error ref)
    | _ =>
      have made : (m.giveFrom fun s => s.newRecord .empty).Nests n
          (m'.giveFrom fun s => s.newRecord .empty) :=
        h.giveFrom (m.store.newRecord_nested n .empty) (h.ready.of_sameBindings (.newRecord _ .empty))
      exact made
  | leave => exact h.pop.give v
  | forEach array callback index => exact h.forEachFrom array callback (index + 1)
  | map array callback index done => exact h.mapFrom array callback (index + 1) (v :: done)
  | reduce array callback index => exact h.reduceFrom array callback (index + 1) v
  | discard => exact h.finish
  | ifTest consequent alternate =>
    simp only [Machine.resumeValue, Pending.nested, Value.isTruthy_nested]
    split
    · exact h.goTo (.exec consequent)
    · cases alternate with
      | some id => exact h.goTo (.exec id)
      | none => exact h.finish
  | whileTest test body =>
    simp only [Machine.resumeValue, Pending.nested, Value.isTruthy_nested]
    split
    · exact h.execThen body (.whileBody test body)
    · exact h.finish
  | forInit p => exact h.testFor p
  | forTest p =>
    simp only [Machine.resumeValue, Pending.nested, Value.isTruthy_nested]
    split
    · exact h.execThen p.body (.forBody p)
    · exact h.finish
  | forUpdate p => exact h.testFor p
  | returnValue => exact h.goTo (.abrupt (.returned v))
  | throwValue node => exact (h.setPc node).throwValue v
  | declare kind declarator name rest =>
    exact (h.bindDeclared kind declarator name v).declare he kind fun d hd => (hp.2 d hd).inside
  | restoreScope outer => exact (h.setScope outer).give v
  | _ => exact h.give v

omit he

lemma resumeDone (p : Pending) : (m.resumeDone p).Nests n (m'.resumeDone p.nested) := by
  cases p with
  | statements rest => exact h.runStatements rest
  | restoreScope outer => exact (h.setScope outer).finish
  | leave => exact h.pop.give .undefined
  | whileBody test body => exact h.evalThen test (.whileTest test body)
  | forInit p => exact h.testFor p
  | forBody p => exact h.updateFor p
  | _ => exact h.finish

lemma resumeAbrupt (a : Abrupt) (p : Pending) :
    (m.resumeAbrupt a p).Nests n (m'.resumeAbrupt a.nested p.nested) := by
  have passed := h.goTo (.abrupt a)
  cases p with
  | restoreScope outer => exact (h.setScope outer).goTo (.abrupt a)
  | leave =>
    cases a with
    | returned v => exact h.pop.give v
    | broken => exact h.pop.give .undefined
    | continued => exact h.pop.give .undefined
    | thrown v frames => exact h.pop.goTo (.abrupt (.thrown v frames))
    | halted reason frames => exact h.pop.goTo (.abrupt (.halted reason frames))
  | whileBody test body =>
    cases a with
    | broken => exact h.finish
    | continued => exact h.evalThen test (.whileTest test body)
    | _ => exact passed
  | forBody p =>
    cases a with
    | broken => exact h.finish
    | continued => exact h.updateFor p
    | _ => exact passed
  | _ => exact passed

/-- The entry that comes next is the same for both. -/
lemma resumed {q : Pending} {ps' : List Pending} (hq : m'.pending = q :: ps') :
    ∃ p ps, m.pending = p :: ps ∧ q = p.nested ∧
      Nests n ⟨m.store, m.calls, m.output, .done, ps⟩
        ⟨m'.store, m'.calls, m'.output, .done, ps'⟩ := by
  have pending := h.pending
  rw [hq] at pending
  cases hp : m.pending with
  | nil => simp [hp] at pending
  | cons p ps =>
    rw [hp] at pending
    obtain ⟨head, rest⟩ := List.cons.inj pending
    exact ⟨p, ps, rfl, head.symm, { h with control := rfl, pending := rest }⟩

end

end Machine.Nests

/-- What comes next refers to nodes of some function. -/
lemma PendingAt.exists_at {e : Setting} {p : Pending} {ps : List Pending} {os : List NodeId}
    (h : PendingAt e (p :: ps) os) : ∃ o, p.At e o := by
  cases p with
  | leave => exact ⟨0, trivial⟩
  | _ =>
    obtain ⟨⟨o, -, -, at_⟩, -⟩ := h
    exact ⟨o, at_⟩

/-- A step keeps the two together, as long as the machine inside has something left to do. -/
theorem Machine.Nests.step {n : Nesting} {m m' : Machine} {e e' : Setting} {K : Abrupt → Prop}
    {os : List NodeId} (h : m.Nests n m') (he : e.Nests n e') (hw : e.tree.WellFormed)
    (sound : Sound e K os m) (inScope : m.Scoped e) (busy : m'.isFinal = false) :
    (m.step e).Nests n (m'.step e') := by
  obtain ⟨store, calls, output, control, pending⟩ := m
  obtain ⟨store', calls', output', control', pending'⟩ := m'
  have same : control' = control.nested := h.control
  subst same
  have resumes {q : Pending} {ps' : List Pending} (hq : pending' = q :: ps') :
      ∃ p ps o, pending = p :: ps ∧ q = p.nested ∧ p.At e o ∧
        Scoped e ⟨store, calls, output, .done, ps⟩ ∧
        Nests n ⟨store, calls, output, .done, ps⟩ ⟨store', calls', output', .done, ps'⟩ := by
    obtain ⟨p, ps, hp, rfl, poised⟩ := h.resumed hq
    have pendingAt : PendingAt e pending os := sound.pending
    have hp : pending = p :: ps := hp
    subst hp
    obtain ⟨o, at_⟩ := pendingAt.exists_at
    exact ⟨p, ps, o, rfl, rfl, at_,
      ⟨inScope.store, inScope.activations, fun outer ho => inScope.restores outer (.tail _ ho)⟩,
      poised⟩
  cases control with
  | eval id =>
    obtain ⟨-, o, os', -, hid⟩ := sound.control
    exact (h.goTo .done).evalNode he (inScope.goTo .done) hid.inside
  | exec id =>
    obtain ⟨-, o, os', -, hid⟩ := sound.control
    exact (h.goTo .done).execNode he (inScope.goTo .done) hid.inside
  | call f args name =>
    obtain ⟨⟨a, as, -, hcall⟩, hname⟩ := sound.control
    exact (h.goTo .done).call he hw (inScope.goTo .done) (inside_of_isCall hw hcall) f args hname
  | value v =>
    cases pending' with
    | nil => cases busy
    | cons q ps' =>
      obtain ⟨p, ps, o, rfl, rfl, at_, inScope, poised⟩ := resumes rfl
      exact poised.resumeValue he hw inScope at_ v
  | done =>
    cases pending' with
    | nil => cases busy
    | cons q ps' =>
      obtain ⟨p, ps, o, rfl, rfl, -, -, poised⟩ := resumes rfl
      exact poised.resumeDone p
  | abrupt a =>
    cases pending' with
    | nil => cases busy
    | cons q ps' =>
      obtain ⟨p, ps, o, rfl, rfl, -, -, poised⟩ := resumes rfl
      exact poised.resumeAbrupt a p

end ScriptDebugger
