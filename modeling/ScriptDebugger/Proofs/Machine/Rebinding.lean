import ScriptDebugger.Proofs.Machine.Entered

/-!
# What a step does to the scopes there are

Most of a step leaves the scopes that there are with their names and their
constants (`Store.Keeps`): what it binds is in a scope of its own, and what it
assigns to is mutable. The exceptions are declarators, which bind in the
innermost scope. `let` and `const` bind anew (`Machine.declared`); a `var` that
has a value assigns to what is bound already, and defines where it cannot
(`Machine.varDeclared?`). `rebinds_step` says that a step does nothing else.
-/

namespace ScriptDebugger

namespace Store

namespace OnlyIn

variable {scope : ScopeId} (s : Store)

lemma bindParams (params : List String) (args : List Value) :
    s.OnlyIn scope (Machine.bindParams s scope params args) :=
  bindParams_kept (fun h _ v => h.trans (define _ _ v true)) (refl s) args

lemma declareVars (names : List String) :
    s.OnlyIn scope (names.foldl (fun s name => s.declareVar scope name) s) :=
  declareVars_kept (fun h _ => h.trans (define _ _ .undefined true)) (refl s)

lemma hoistFunctions (e : Setting) (body : List NodeId) :
    s.OnlyIn scope (s.hoistFunctions e scope body) :=
  hoistFunctions_kept (fun h _ => h.trans ⟨rfl, fun _ _ => rfl⟩)
    (fun h _ v => h.trans (define _ _ v true)) (refl s) body

lemma hoist (e : Setting) (body : List NodeId) : s.OnlyIn scope (s.hoist e scope body) :=
  (declareVars s _).trans (hoistFunctions _ e body)

end OnlyIn

lemma size_hoistFunctions (s : Store) (e : Setting) (scope : ScopeId) (body : List NodeId) :
    (s.hoistFunctions e scope body).scopes.size = s.scopes.size := by
  have only : s.OnlyIn scope (s.hoistFunctions e scope body) := .hoistFunctions s e body
  exact only.size

lemma size_hoist (s : Store) (e : Setting) (scope : ScopeId) (body : List NodeId) :
    (s.hoist e scope body).scopes.size = s.scopes.size := by
  have only : s.OnlyIn scope (s.hoist e scope body) := .hoist s e body
  exact only.size

/-- Every scope that there is keeps its parent, its names and its constants; there may be more
scopes. -/
structure Keeps (s s' : Store) : Prop where
  size : s.scopes.size ≤ s'.scopes.size
  parent : ∀ id < s.scopes.size, (s'.scope id).parent = (s.scope id).parent
  names : ∀ id < s.scopes.size, (s'.scope id).names = (s.scope id).names
  constants : ∀ id < s.scopes.size, ∀ name b, (s.scope id).find? name = some b →
    b.isMutable = false → (s'.scope id).find? name = some b

namespace Keeps

variable {s s' s'' : Store}

lemma of_same (size : s.scopes.size ≤ s'.scopes.size)
    (same : ∀ id < s.scopes.size, s'.scope id = s.scope id) : s.Keeps s' where
  size := size
  parent := fun id hid => by rw [same id hid]
  names := fun id hid => by rw [same id hid]
  constants := fun id hid name b hb _ => by rw [same id hid, hb]

lemma refl (s : Store) : s.Keeps s := of_same (Nat.le_refl _) fun _ _ => rfl

lemma trans (h : s.Keeps s') (h' : s'.Keeps s'') : s.Keeps s'' where
  size := Nat.le_trans h.size h'.size
  parent := fun id hid =>
    (h'.parent id (Nat.lt_of_lt_of_le hid h.size)).trans (h.parent id hid)
  names := fun id hid => (h'.names id (Nat.lt_of_lt_of_le hid h.size)).trans (h.names id hid)
  constants := fun id hid name b hb constant =>
    h'.constants id (Nat.lt_of_lt_of_le hid h.size) name b (h.constants id hid name b hb constant)
      constant

lemma of_sameBindings (same : s.SameBindings s') : s.Keeps s' :=
  of_same (Nat.le_of_eq (SameScopes.of_sameBindings same).size.symm) fun id _ => same.scope id

lemma newClosure (s : Store) (c : Closure) : s.Keeps (s.newClosure c).1 :=
  of_same (Nat.le_refl _) fun _ _ => rfl

lemma newScope (s : Store) (parent : Option ScopeId) : s.Keeps (s.newScope parent).1 := by
  refine of_same (Nat.le_of_lt (s.lt_newScope parent)) fun id hid => ?_
  rw [scope_newScope, if_neg (Nat.ne_of_lt hid)]

/-- What happens in a scope that is not there yet does not count. -/
lemma onlyIn (h : s.Keeps s') {scope : Nat} (new : s.scopes.size ≤ scope)
    (only : s'.OnlyIn scope s'') : s.Keeps s'' := by
  have same (id : Nat) (hid : id < s.scopes.size) : s''.scope id = s'.scope id :=
    only.others id fun here => Nat.not_lt_of_le new (here ▸ hid)
  constructor
  · exact only.size ▸ h.size
  · intro id hid
    rw [same id hid, h.parent id hid]
  · intro id hid
    rw [same id hid, h.names id hid]
  · intro id hid name b hb constant
    rw [same id hid, h.constants id hid name b hb constant]

/-- An assignment keeps the names, and it reaches no constant. -/
lemma assign (s : Store) {scope owner : ScopeId} {name : String}
    (target : s.assignTarget scope name = .ok owner) (v : Value) :
    s.Keeps (s.define owner name v true) := by
  obtain ⟨b, found, assignable⟩ : ∃ b, (s.scope owner).find? name = some b ∧
      b.isMutable = true := by
    simp only [assignTarget] at target
    split at target
    · cases target
    · split at target
      case isTrue assignable =>
        cases target
        exact (Option.any_eq_true ..).mp assignable
      case isFalse => cases target
  have same := SameScopes.define s owner name v true
  constructor
  · exact Nat.le_of_eq same.size.symm
  · intro id _
    exact same.parent id
  · intro id _
    rw [scope_define_eq]
    split
    case isTrue here =>
      have bound : name ∈ (s.scope id).names := (Scope.mem_names_iff _ name).mpr ⟨b, here.1 ▸ found⟩
      rw [Scope.names_define, if_pos bound]
    case isFalse => rfl
  · intro id _ other c hc constant
    rw [scope_define_eq]
    split
    case isTrue here =>
      rw [Scope.find?_define]
      split
      case isTrue own =>
        have own : name = other := own
        rw [← here.1, ← own, found] at hc
        cases hc
        rw [assignable] at constant
        cases constant
      case isFalse => exact hc
    case isFalse => exact hc

end Keeps

/-- Defines names in one scope, one after the other. -/
def bindAll (s : Store) (scope : ScopeId) (bs : List Binding) : Store :=
  bs.foldl (fun s b => s.define scope b.name b.value b.isMutable) s

lemma SameScopes.bindAll (s : Store) (scope : ScopeId) (bs : List Binding) :
    s.SameScopes (s.bindAll scope bs) := by
  induction bs generalizing s with
  | nil => exact refl s
  | cons b rest ih => exact (define s scope b.name b.value b.isMutable).trans (ih _)

/-- A name that is not among those defined is bound as before. -/
lemma find?_bindAll (s : Store) {scope id : ScopeId} {bs : List Binding} {name : String}
    (other : scope = id → ∀ b ∈ bs, b.name ≠ name) :
    ((s.bindAll scope bs).scope id).find? name = (s.scope id).find? name := by
  induction bs generalizing s with
  | nil => rfl
  | cons b rest ih =>
    refine (ih _ fun same c hc => other same c (List.mem_cons_of_mem b hc)).trans ?_
    rw [scope_define_eq]
    split
    case isTrue here =>
      rw [Scope.find?_define, if_neg (other here.1 b List.mem_cons_self)]
    case isFalse => rfl

/-- The last definition of a name is the one that is found. -/
lemma find?_bindAll_last {s : Store} {scope : ScopeId} (hs : scope < s.scopes.size)
    {pre post : List Binding} {b : Binding} (last : ∀ c ∈ post, c.name ≠ b.name) :
    ((s.bindAll scope (pre ++ b :: post)).scope scope).find? b.name = some b := by
  rw [bindAll, List.foldl_append, List.foldl_cons, ← bindAll, ← bindAll,
    find?_bindAll _ fun _ => last, find?_define ((SameScopes.bindAll s scope pre).size.symm ▸ hs),
    if_pos rfl]

lemma mem_names_define (s : Store) (scope : ScopeId) (name : String) (v : Value)
    (isMutable : Bool) {id : ScopeId} (hid : id < s.scopes.size) (x : String) :
    x ∈ ((s.define scope name v isMutable).scope id).names ↔
      x ∈ (s.scope id).names ∨ scope = id ∧ x = name := by
  rw [scope_define_eq]
  by_cases here : scope = id
  · rw [if_pos ⟨here, hid⟩, Scope.names_define]
    by_cases bound : name ∈ (s.scope id).names
    · rw [if_pos bound]
      constructor
      · exact .inl
      · rintro (known | ⟨-, rfl⟩)
        · exact known
        · exact bound
    · rw [if_neg bound, List.mem_append, List.mem_singleton]
      simp [here]
  · rw [if_neg fun h => here h.1]
    simp [here]

lemma mem_names_bindAll (s : Store) (scope : ScopeId) (bs : List Binding) {id : ScopeId}
    (hid : id < s.scopes.size) (x : String) :
    x ∈ ((s.bindAll scope bs).scope id).names ↔
      x ∈ (s.scope id).names ∨ scope = id ∧ ∃ b ∈ bs, b.name = x := by
  induction bs generalizing s with
  | nil => simp [bindAll]
  | cons b rest ih =>
    have size := (SameScopes.define s scope b.name b.value b.isMutable).size
    rw [bindAll, List.foldl_cons, ← bindAll, ih _ (size.symm ▸ hid), mem_names_define _ _ _ _ _ hid]
    simp only [List.exists_mem_cons_iff, eq_comm (a := x)]
    tauto

end Store

/-- The bindings that declarators make before the first of them that has a value to evaluate. A
`var` without a value binds nothing. -/
def Tree.unvalued (t : Tree) (kind : VarKind) : List NodeId → List Binding
  | [] => []
  | d :: rest =>
    match t.kind d with
    | .variableDeclarator _ (some _) => []
    | .variableDeclarator nameId none =>
      if kind.isLexical then
        ⟨t.nameOf nameId, .undefined, kind != .constKind⟩ :: t.unvalued kind rest
      else t.unvalued kind rest
    | _ => t.unvalued kind rest

/-- The bindings that a `for` makes on its way to the first value of its declaration. -/
def Tree.unvaluedInit (t : Tree) (init : Option NodeId) : List Binding :=
  init.elim [] fun id =>
    match t.kind id with
    | .variableDeclaration kind ds => t.unvalued kind ds
    | _ => []

namespace Machine

/-- The bindings that the next step makes for `let` and `const` declarators. -/
def declared (e : Setting) (m : Machine) : List Binding :=
  match m.control, m.pending with
  | .exec id, _ =>
    if haltsAt e id then []
    else
      match e.tree.kind id with
      | .variableDeclaration kind ds => e.tree.unvalued kind ds
      | .forStatement init _ _ _ => e.tree.unvaluedInit init
      | _ => []
  | .value v, .declare kind _ name rest :: _ =>
    if kind.isLexical then ⟨name, v, kind != .constKind⟩ :: e.tree.unvalued kind rest else []
  | _, _ => []

/-- The name that the next step gives a value to for a `var` declarator. -/
def varDeclared? (m : Machine) : Option String :=
  match m.control, m.pending with
  | .value _, .declare .varKind _ name _ :: _ => some name
  | _, _ => none

variable {e : Setting} {m : Machine}

lemma unvalued_varKind (t : Tree) (ds : List NodeId) : t.unvalued .varKind ds = [] := by
  induction ds with
  | nil => rfl
  | cons d rest ih =>
    rw [Tree.unvalued]
    split
    · rfl
    · exact ih
    · exact ih

/-- Only `let` and `const` bind without a value, and what they bind they declare. -/
lemma declares_of_unvalued {t : Tree} (hw : t.WellFormed) {kind : VarKind} {ds : List NodeId}
    {b : Binding} (hb : b ∈ t.unvalued kind ds) :
    kind.isLexical = true ∧ b.name ∈ t.declaredNames ds := by
  induction ds with
  | nil => cases hb
  | cons d rest ih =>
    have later (hb : b ∈ t.unvalued kind rest) :
        kind.isLexical = true ∧ b.name ∈ t.declaredNames (d :: rest) := by
      obtain ⟨lexical, c, hc, declares⟩ := (ih hb).imp_right Tree.mem_declaredNames.mp
      exact ⟨lexical, Tree.mem_declaredNames.mpr ⟨c, List.mem_cons_of_mem d hc, declares⟩⟩
    rw [Tree.unvalued] at hb
    split at hb
    case h_1 => cases hb
    case h_2 nameId hd =>
      split at hb
      case isTrue lexical =>
        rcases List.mem_cons.mp hb with rfl | hb
        · exact ⟨lexical, Tree.mem_declaredNames.mpr
            ⟨d, List.mem_cons_self, nameId, none, hd, hw.kind_nameId hd⟩⟩
        · exact later hb
      case isFalse => exact later hb
    case h_3 => exact later hb

/-- Going on with declarators binds those without a value, up to the first with one. -/
lemma store_declare (m : Machine) (kind : VarKind) (ds : List NodeId) :
    (m.declare e kind ds).store = m.store.bindAll m.scope (e.tree.unvalued kind ds) ∧
      (m.declare e kind ds).scope = m.scope := by
  induction ds generalizing m with
  | nil => exact ⟨rfl, rfl⟩
  | cons d rest ih =>
    rw [declare, Tree.unvalued]
    cases hk : e.tree.kind d with
    | variableDeclarator nameId init =>
      cases init with
      | some value => exact ⟨rfl, rfl⟩
      | none =>
        simp only []
        split
        · exact ih (m.define m.scope (e.tree.nameOf nameId) .undefined (kind != .constKind))
        · exact ih m
    | _ => exact ih m

lemma store_testFor (m : Machine) (p : ForParts) :
    (m.testFor p).store = m.store ∧ (m.testFor p).scope = m.scope := by
  rw [testFor]
  split <;> exact ⟨rfl, rfl⟩

lemma scope_setPc (m : Machine) (id : NodeId) : (m.setPc id).scope = m.scope := by
  rw [Machine.scope, CallStack.top?_eq_head?, Machine.setPc, CallStack.setPc,
    CallStack.toList_modifyTop, Machine.scope, CallStack.top?_eq_head?]
  cases m.calls.toList <;> rfl

lemma store_startFor (m : Machine) (init : Option NodeId) (p : ForParts) :
    (m.startFor e init p).store = m.store.bindAll m.scope (e.tree.unvaluedInit init) ∧
      (m.startFor e init p).scope = m.scope := by
  cases init with
  | none => exact store_testFor m p
  | some id =>
    simp only [startFor, Tree.unvaluedInit, Option.elim_some]
    cases hk : e.tree.kind id with
    | variableDeclaration kind ds =>
      have declared := store_declare (e := e) ((m.setPc id).push (.forInit p)) kind ds
      rwa [show Machine.scope ((m.setPc id).push (.forInit p)) = m.scope from m.scope_setPc id]
        at declared
    | _ => exact ⟨rfl, rfl⟩

/-- Evaluating an expression keeps the scopes that there are. -/
lemma keeps_kept (s : Store) : KeptByExpressions e fun m => s.Keeps m.store where
  setPc := fun h _ => h
  goTo := fun h _ _ => h
  throwValue := fun h _ => h
  push := fun h _ _ => h
  print := fun h _ => h
  withStore := fun h _ same => h.trans (.of_sameBindings same)
  assign := fun h _ _ target v => h.trans (.assign _ target v)
  functionValue := fun {m} h id name params body _ => by
    simp only [functionValue]
    split
    · exact h.trans (.newClosure _ _)
    case h_2 name _ =>
      have made := (h.trans (.newScope m.store (some m.scope))).trans
        (.newClosure _ (e.closure id (some name) params body m.store.scopes.size))
      exact made.onlyIn h.size (.define _ name _ false)

lemma keeps_enteredStore (s : Store) (c : Closure) (args : List Value) :
    s.Keeps (enteredStore e s c args) :=
  (Store.Keeps.newScope s (some c.scope)).onlyIn (Nat.le_refl _)
    ((Store.OnlyIn.bindParams _ c.params args).trans (.hoist _ e _))

lemma lt_enteredStore (s : Store) (c : Closure) (args : List Value) :
    s.scopes.size < (enteredStore e s c args).scopes.size := by
  have only : (s.newScope (some c.scope)).1.OnlyIn s.scopes.size (enteredStore e s c args) :=
    (Store.OnlyIn.bindParams _ c.params args).trans (.hoist _ e (e.tree.blockBody c.body))
  exact Nat.lt_of_lt_of_eq (s.lt_newScope (some c.scope)) only.size.symm

/-- A function that is entered finds in its scope what its statements declare in advance. -/
lemma mem_names_enteredStore (s : Store) (c : Closure) (args : List Value) {name : String}
    (declared : name ∈ e.tree.varNames (e.tree.blockBody c.body) ∨
      name ∈ e.tree.functionNames (e.tree.blockBody c.body)) :
    name ∈ ((enteredStore e s c args).scope s.scopes.size).names := by
  have bound := (Store.SameScopes.bindParams (s.newScope (some c.scope)).1 s.scopes.size c.params
    args).size
  exact (Store.mem_names_hoist (Nat.lt_of_lt_of_eq (s.lt_newScope _) bound.symm) _ name).mpr
    (.inr declared)

lemma keeps_runBody {s : Store} (h : s.Keeps m.store) (body : NodeId) :
    s.Keeps (runBody e body m).store := by
  rw [runBody]
  split
  · exact h
  · cases e.tree.blockBody body <;> exact h

lemma keeps_callClosure {s : Store} (h : s.Keeps m.store) (c : Closure) (args : List Value) :
    s.Keeps (m.callClosure e c args).store := by
  refine enterFunction_cases (Q := fun m' => s.Keeps m'.store) c args _ (fun calls _ => ?_) ?_
  · exact keeps_runBody (h.trans (keeps_enteredStore m.store c args)) c.body
  · have bound := (h.trans (.newScope m.store (some c.scope))).onlyIn h.size
      (Store.OnlyIn.bindParams _ c.params args)
    exact (keeps_kept (e := e) s).throwFault (m := { m with store := _ }) bound _

lemma keeps_enterBlock (m : Machine) (body : List NodeId) :
    m.store.Keeps (m.enterBlock e body).store :=
  (Store.Keeps.newScope m.store (some m.scope)).onlyIn (Nat.le_refl _) (.hoistFunctions _ e body)

lemma store_runStatements (m : Machine) (ids : List NodeId) :
    (m.runStatements ids).store = m.store := by
  cases ids <;> rfl

lemma store_updateFor (m : Machine) (p : ForParts) : (m.updateFor p).store = m.store := by
  rw [updateFor]
  split
  · rfl
  · exact (store_testFor m p).1

lemma store_resumeDone (m : Machine) (p : Pending) : (m.resumeDone p).store = m.store := by
  cases p with
  | statements rest => exact store_runStatements m rest
  | forInit p => exact (store_testFor m p).1
  | forBody p => exact store_updateFor m p
  | _ => rfl

lemma store_resumeAbrupt (m : Machine) (a : Abrupt) (p : Pending) :
    (m.resumeAbrupt a p).store = m.store := by
  cases p with
  | leave => cases a <;> rfl
  | whileBody test body => cases a <;> rfl
  | forBody p =>
    cases a with
    | continued => exact store_updateFor m p
    | _ => rfl
  | _ => rfl

/-- `m'` comes from `m` by a step that keeps the scopes there are, but for what declarators bind in
the innermost scope. -/
inductive Rebinds (e : Setting) (m m' : Machine) : Prop
  | lexical {s : Store} (var : m.varDeclared? = none) (kept : m.store.Keeps s)
    (scope : m.declared e = [] ∨ m'.scope = m.scope ∨ m.store.scopes.size ≤ m'.scope)
    (store : m'.store = s.bindAll m'.scope (m.declared e)) : Rebinds e m m'
  | assigned {name : String} {v : Value} {owner : ScopeId} (var : m.varDeclared? = some name)
    (lexical : m.declared e = []) (target : m.store.assignTarget m.scope name = .ok owner)
    (store : m'.store = m.store.define owner name v true) : Rebinds e m m'
  | defined {name : String} {v : Value} {fault : Store.AssignFault}
    (var : m.varDeclared? = some name) (lexical : m.declared e = [])
    (target : m.store.assignTarget m.scope name = .error fault)
    (store : m'.store = m.store.define m.scope name v true) : Rebinds e m m'

namespace Rebinds

variable {m' : Machine}

lemma of_keeps (var : m.varDeclared? = none) (lexical : m.declared e = [])
    (kept : m.store.Keeps m'.store) : m.Rebinds e m' :=
  .lexical var kept (.inl lexical) (by rw [lexical]; rfl)

/-- Where declarators are gone on with, they bind in the scope at hand. -/
lemma of_bindAll {m₀ : Machine} (var : m.varDeclared? = none) (kept : m.store.Keeps m₀.store)
    (scope : m₀.scope = m.scope ∨ m.store.scopes.size ≤ m₀.scope)
    (h : m'.store = m₀.store.bindAll m₀.scope (m.declared e) ∧ m'.scope = m₀.scope) :
    m.Rebinds e m' := by
  obtain ⟨store, same⟩ := h
  rw [← same] at store scope
  exact .lexical var kept (.inr scope) store

section

variable (h : m.Rebinds e m')
include h

lemma size : m.store.scopes.size ≤ m'.store.scopes.size := by
  cases h with
  | lexical var kept scope store =>
    rw [store, (Store.SameScopes.bindAll _ _ _).size]
    exact kept.size
  | assigned var lexical target store | defined var lexical target store =>
    rw [store]
    exact Nat.le_of_eq (Store.SameScopes.define _ _ _ _ _).size.symm

lemma parent {id : ScopeId} (hid : id < m.store.scopes.size) :
    (m'.store.scope id).parent = (m.store.scope id).parent := by
  cases h with
  | lexical var kept scope store =>
    rw [store, (Store.SameScopes.bindAll _ _ _).parent, kept.parent id hid]
  | assigned var lexical target store | defined var lexical target store =>
    rw [store]
    exact Store.scope_define _ _ _ _ _ id

/-- A scope that there is gets no names but those that are declared in it. -/
lemma mem_names {id : ScopeId} (hid : id < m.store.scopes.size) (x : String) :
    x ∈ (m'.store.scope id).names ↔ x ∈ (m.store.scope id).names ∨
      (m.scope = id ∧ m'.scope = id ∧ ∃ b ∈ m.declared e, b.name = x) ∨
      m.scope = id ∧ m.varDeclared? = some x ∧
        ∃ fault, m.store.assignTarget m.scope x = .error fault := by
  cases h with
  | lexical var kept scope store =>
    rw [store, Store.mem_names_bindAll _ _ _ (Nat.lt_of_lt_of_le hid kept.size), kept.names id hid,
      var]
    constructor
    · rintro (known | ⟨here, b, hb, own⟩)
      · exact .inl known
      · rcases scope with none | same | new
        · rw [none] at hb
          cases hb
        · exact .inr (.inl ⟨same ▸ here, here, b, hb, own⟩)
        · exact absurd hid (Nat.not_lt_of_le (here ▸ new))
    · rintro (known | ⟨-, here, bound⟩ | ⟨-, none, -⟩)
      · exact .inl known
      · exact .inr ⟨here, bound⟩
      · cases none
  | @assigned name v owner var lexical target store =>
    rw [store, (Store.Keeps.assign m.store target _).names id hid, var, lexical]
    constructor
    · exact .inl
    · rintro (known | ⟨-, -, b, hb, -⟩ | ⟨-, same, fault, none⟩)
      · exact known
      · cases hb
      · obtain rfl : name = x := Option.some.inj same
        rw [target] at none
        cases none
  | @defined name v fault var lexical target store =>
    rw [store, Store.mem_names_define _ _ _ _ _ hid, var, lexical]
    constructor
    · rintro (known | ⟨same, rfl⟩)
      · exact .inl known
      · exact .inr (.inr ⟨same, rfl, fault, target⟩)
    · rintro (known | ⟨-, -, b, hb, -⟩ | ⟨same, own, -⟩)
      · exact .inl known
      · cases hb
      · exact .inr ⟨same, (Option.some.inj own).symm⟩

end

end Rebinds

lemma scope_setScope (hc : m.calls.toList ≠ []) (scope : ScopeId) :
    (m.setScope scope).scope = scope := by
  rw [Machine.scope, CallStack.top?_eq_head?, Machine.setScope, CallStack.setScope,
    CallStack.toList_modifyTop]
  cases hl : m.calls.toList with
  | nil => exact absurd hl hc
  | cons a as => rfl

lemma scope_enterBlock (running : m.calls.toList ≠ []) (id : NodeId) (body : List NodeId) :
    (enterBlock e (m.setPc id) body).scope = m.store.scopes.size := by
  refine scope_setScope (fun none => running ?_) _
  have none : (m.calls.setPc id).toList = [] := none
  rw [CallStack.setPc, CallStack.toList_modifyTop] at none
  exact List.modifyHead_eq_nil_iff.mp none

/-- Starting on a statement. -/
lemma rebinds_execNode {m₀ : Machine} {id : NodeId} (control : m.control = .exec id)
    (store : m₀.store = m.store) (calls : m₀.calls = m.calls) (running : m.calls.toList ≠ []) :
    m.Rebinds e (execNode e m₀ id) := by
  have var : m.varDeclared? = none := by simp only [varDeclared?, control]
  have kept : m.store.Keeps (m₀.setPc id).store := store ▸ .refl _
  have scope : (m₀.setPc id).scope = m.scope := by
    rw [scope_setPc, Machine.scope, calls, Machine.scope]
  simp only [execNode]
  by_cases halts : haltsAt e id = true
  · rw [if_pos halts]
    exact .of_keeps var (by simp only [declared, control, if_pos halts]) kept
  rw [if_neg halts]
  cases hk : e.tree.kind id with
  | variableDeclaration kind ds =>
    have lexical : m.declared e = e.tree.unvalued kind ds := by
      simp only [declared, control, if_neg halts, hk]
    exact .of_bindAll var kept (.inl scope) (lexical ▸ store_declare _ kind ds)
  | blockStatement body =>
    refine .of_keeps var (by simp only [declared, control, if_neg halts, hk]) ?_
    simp only [runBlock]
    split
    · rw [store_runStatements]
      exact kept.trans (keeps_enterBlock _ body)
    · rwa [store_runStatements]
  | forStatement init test update body =>
    have lexical : m.declared e = e.tree.unvaluedInit init := by
      simp only [declared, control, if_neg halts, hk]
    simp only [runFor]
    split
    · have entered := scope_enterBlock (e := e) (m := m₀) (calls ▸ running) id []
      refine .of_bindAll var (kept.trans (keeps_enterBlock _ []))
        (.inr (Nat.le_of_eq (entered.trans ?_).symm))
        (lexical ▸ store_startFor (enterBlock e (m₀.setPc id) []) init ⟨test, update, body⟩)
      rw [store]
    · exact .of_bindAll var kept (.inl scope)
        (lexical ▸ store_startFor (m₀.setPc id) init ⟨test, update, body⟩)
  | returnStatement argument =>
    refine .of_keeps var (by simp only [declared, control, if_neg halts, hk]) ?_
    cases argument <;> exact kept
  | debuggerStatement =>
    refine .of_keeps var (by simp only [declared, control, if_neg halts, hk]) ?_
    simp only []
    split <;> exact kept
  | _ => exact .of_keeps var (by simp only [declared, control, if_neg halts, hk]) kept

/-- Going on with an expression. -/
lemma keeps_resumeValue {s : Store} (h : s.Keeps m.store) (v : Value) {p : Pending}
    (hp : p.isExpression = true) : s.Keeps (resumeValue e m v p).store := by
  by_cases hf : ∃ ref, constructed? v p = some (.function ref)
  · obtain ⟨ref, hf⟩ := hf
    obtain ⟨site, args, -, step⟩ := resumeValue_of_constructed (e := e) hf m
    rw [step]
    exact keeps_callClosure (m := (m.setPc site.node).push .construct) h _ args
  · exact (keeps_kept s).resumeValue h v hp fun ref h => hf ⟨ref, h⟩

/-- A `var` is given its value. -/
lemma rebinds_var (store : Store) (calls : CallStack) (output : String) (v : Value) (d : NodeId)
    (name : String) (rest : List NodeId) (ps : List Pending) :
    Rebinds e ⟨store, calls, output, .value v, .declare .varKind d name rest :: ps⟩
      (resumeValue e ⟨store, calls, output, .done, ps⟩ v (.declare .varKind d name rest)) := by
  set m₀ : Machine := Machine.setPc ⟨store, calls, output, .done, ps⟩ d with hm₀
  have scope : m₀.scope = Machine.scope ⟨store, calls, output, .done, ps⟩ := scope_setPc _ d
  have bound (m₁ : Machine) : (m₁.declare e .varKind rest).store = m₁.store := by
    rw [(store_declare m₁ .varKind rest).1, unvalued_varKind]
    rfl
  cases target : store.assignTarget m₀.scope name with
  | ok owner =>
    refine .assigned (v := v) rfl rfl (scope ▸ target) ?_
    have step : m₀.store.assignTarget m₀.scope name = .ok owner := target
    simp only [resumeValue, bindDeclared_eq, VarKind.isLexical, Bool.false_eq_true, if_false, bound]
    rw [← hm₀, step]
    rfl
  | error fault =>
    refine .defined (v := v) rfl rfl (scope ▸ target) ?_
    have step : m₀.store.assignTarget m₀.scope name = .error fault := target
    simp only [resumeValue, bindDeclared_eq, VarKind.isLexical, Bool.false_eq_true, if_false, bound]
    rw [← hm₀, step, scope]
    rfl

/-- Going on with an entry that has been given a value. -/
lemma rebinds_resumeValue (store : Store) (calls : CallStack) (output : String) (v : Value)
    (p : Pending) (ps : List Pending) :
    Rebinds e ⟨store, calls, output, .value v, p :: ps⟩
      (resumeValue e ⟨store, calls, output, .done, ps⟩ v p) := by
  have kept : store.Keeps (⟨store, calls, output, .done, ps⟩ : Machine).store := .refl store
  cases p with
  | declare kind d name rest =>
    cases kind with
    | varKind => exact rebinds_var store calls output v d name rest ps
    | letKind | constKind =>
      exact .of_bindAll rfl kept (.inl rfl) (store_declare (e := e) (Machine.define
        ⟨store, calls, output, .done, ps⟩ (Machine.scope ⟨store, calls, output, .done, ps⟩) name v
          _) _ rest)
  | ifTest consequent alternate =>
    refine .of_keeps rfl rfl ?_
    simp only [resumeValue]
    split
    · exact kept
    · split <;> exact kept
  | whileTest test body =>
    refine .of_keeps rfl rfl ?_
    simp only [resumeValue]
    split <;> exact kept
  | forTest p =>
    refine .of_keeps rfl rfl ?_
    simp only [resumeValue]
    split <;> exact kept
  | forInit p | forUpdate p =>
    refine .of_keeps rfl rfl ?_
    simp only [resumeValue, store_testFor]
    exact kept
  | leave | restoreScope | discard | returnValue | throwValue | statements | whileBody | forBody =>
    exact .of_keeps rfl rfl kept
  | _ => exact .of_keeps rfl rfl (keeps_resumeValue kept v rfl)

/-- A step that declares nothing keeps the scopes there are. What it declares, it binds in the
innermost scope. -/
theorem rebinds_step (running : m.isFinal = false → m.calls.toList ≠ []) :
    m.Rebinds e (m.step e) := by
  obtain ⟨store, calls, output, control, pending⟩ := m
  have kept : store.Keeps (⟨store, calls, output, .done, pending⟩ : Machine).store := .refl store
  cases control with
  | eval id => exact .of_keeps rfl rfl ((keeps_kept store).evalNode kept id)
  | exec id => exact rebinds_execNode rfl rfl rfl (running (by cases pending <;> rfl))
  | call f args name =>
    refine .of_keeps rfl rfl ?_
    by_cases hf : ∃ ref, f = .function ref
    · obtain ⟨ref, rfl⟩ := hf
      exact keeps_callClosure kept (store.closure ref) args
    · exact (keeps_kept store).call kept (fun ref h => hf ⟨ref, h⟩) args name
  | value v =>
    cases pending with
    | nil => exact .of_keeps rfl rfl kept
    | cons p ps => exact rebinds_resumeValue store calls output v p ps
  | done =>
    cases pending with
    | nil => exact .of_keeps rfl rfl kept
    | cons p ps =>
      refine .of_keeps rfl rfl ?_
      show store.Keeps (resumeDone ⟨store, calls, output, .done, ps⟩ p).store
      rw [store_resumeDone]
      exact kept
  | abrupt a =>
    cases pending with
    | nil => exact .of_keeps rfl rfl kept
    | cons p ps =>
      refine .of_keeps rfl rfl ?_
      show store.Keeps (resumeAbrupt ⟨store, calls, output, .done, ps⟩ a p).store
      rw [store_resumeAbrupt]
      exact kept

end Machine

end ScriptDebugger
