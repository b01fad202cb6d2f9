import ScriptDebugger.Machine.Call
import ScriptDebugger.Proofs.Machine.CallStack
import ScriptDebugger.Proofs.Value.Bindings

/-!
# Scopes and closures of a run

Scopes and closures are only added. In a store of a run every scope but the
global one leads to an older one, and every closure has been made of a function
of the tree in a scope that there is (`Store.Scoped`); a machine refers to such
scopes only (`Machine.Scoped`).
-/

namespace ScriptDebugger

namespace Store

variable {P : Store → Prop} {scope : ScopeId} {s : Store}

/-- What a definition keeps, the parameters keep. -/
lemma bindParams_kept {params : List String}
    (define : ∀ {s : Store} {name : String}, P s → name ∈ params →
      ∀ v, P (s.define scope name v true))
    (h : P s) (args : List Value) : P (Machine.bindParams s scope params args) := by
  induction params generalizing s args with
  | nil => exact h
  | cons p ps ih =>
    have first := define h List.mem_cons_self
    have rest {s : Store} (h : P s) := ih (fun h listed => define h (.tail p listed)) h
    cases args with
    | nil => exact rest (first .undefined) []
    | cons v vs => exact rest (first v) vs

/-- What a definition keeps, the names of variables keep. -/
lemma declareVars_kept {names : List String}
    (define : ∀ {s : Store} {name : String}, P s → name ∈ names →
      P (s.define scope name .undefined true))
    (h : P s) : P (names.foldl (fun s name => s.declareVar scope name) s) :=
  List.foldlRecOn names _ h fun s h name listed => by
    rw [declareVar]
    split
    · exact h
    · exact define h listed

/-- What is kept when a function is made of its declaration and when its name is bound, the
functions of a body keep. -/
lemma hoistFunctions_kept {e : Setting}
    (closure : ∀ {s : Store} {id nameId b : NodeId} {params : List NodeId}, P s →
      e.tree.kind id = .functionDeclaration nameId params b →
        P (s.newClosure (e.closure id (some (e.tree.nameOf nameId)) params b scope)).1)
    (define : ∀ {s : Store} {id nameId b : NodeId} {params : List NodeId}, P s →
      e.tree.kind id = .functionDeclaration nameId params b →
        ∀ v, P (s.define scope (e.tree.nameOf nameId) v true))
    (h : P s) (body : List NodeId) : P (s.hoistFunctions e scope body) :=
  List.foldlRecOn body _ h fun s h id _ => by
    rw [declareFunction]
    split
    case h_1 nameId params b kind => exact define (closure h kind) kind _
    case h_2 => exact h

end Store

/-- Closures are added and never changed. -/
structure Store.Grows (s s' : Store) : Prop where
  closures : s.closures.toList <+: s'.closures.toList

/-- The same scopes and closures; arrays, records, built-ins and errors may differ. -/
structure Store.SameBindings (s s' : Store) : Prop where
  scopes : s'.scopes = s.scopes
  closures : s'.closures = s.closures

namespace Store.SameBindings

lemma refl (s : Store) : s.SameBindings s := ⟨rfl, rfl⟩

lemma scope {s s' : Store} (h : s.SameBindings s') (id : ScopeId) : s'.scope id = s.scope id := by
  rw [Store.scope, h.scopes, Store.scope]

variable (s : Store)

lemma newArray (items : Array Value) : s.SameBindings (s.newArray items).1 :=
  ⟨rfl, rfl⟩

lemma newRecord (r : Record) : s.SameBindings (s.newRecord r).1 := ⟨rfl, rfl⟩

lemma newBuiltin (b : Builtin) (receiver : Option Value) :
    s.SameBindings (s.newBuiltin b receiver).1 := ⟨rfl, rfl⟩

lemma newError (e : ErrorObject) : s.SameBindings (s.newError e).1 := ⟨rfl, rfl⟩

lemma setArray (ref : Ref) (f : Array Value → Array Value) : s.SameBindings (s.setArray ref f) :=
  ⟨rfl, rfl⟩

lemma setRecord (ref : Ref) (f : Record → Record) : s.SameBindings (s.setRecord ref f) :=
  ⟨rfl, rfl⟩

lemma setMember (receiver : Value) (key : String) (v : Value) :
    s.SameBindings (s.setMember receiver key v) := by
  cases receiver with
  | array ref =>
    simp only [Store.setMember]
    split
    · exact setArray s ref _
    · exact refl s
  | object ref => exact setRecord s ref _
  | _ => exact refl s

lemma callArrayMethod (method : ArrayMethod) (ref : Ref) (args : List Value) :
    s.SameBindings (s.callArrayMethod method ref args).1 := by
  cases method with
  | push => exact setArray s ref _
  | pop => exact setArray s ref _
  | indexOf =>
    simp only [Store.callArrayMethod]
    split <;> exact refl s
  | slice => exact newArray s _
  | _ => exact refl s

end Store.SameBindings

/-- The same scopes and closures, as far as no bindings are looked at. -/
structure Store.SameScopes (s s' : Store) : Prop where
  size : s'.scopes.size = s.scopes.size
  parent : ∀ id, (s'.scope id).parent = (s.scope id).parent
  closures : s'.closures = s.closures

namespace Store.SameScopes

lemma refl (s : Store) : s.SameScopes s := ⟨rfl, fun _ => rfl, rfl⟩

lemma trans {s s' s'' : Store} (h : s.SameScopes s') (h' : s'.SameScopes s'') :
    s.SameScopes s'' :=
  ⟨h'.size.trans h.size, fun id => (h'.parent id).trans (h.parent id),
    h'.closures.trans h.closures⟩

lemma grows {s s' : Store} (h : s.SameScopes s') : s.Grows s' :=
  ⟨h.closures ▸ List.prefix_rfl⟩

lemma of_sameBindings {s s' : Store} (h : s.SameBindings s') : s.SameScopes s' :=
  ⟨by rw [h.scopes], fun id => by rw [h.scope], h.closures⟩

variable (s : Store)

lemma define (id : ScopeId) (name : String) (v : Value) (isMutable : Bool) :
    s.SameScopes (s.define id name v isMutable) :=
  ⟨Array.size_modify, scope_define s id name v isMutable, rfl⟩

lemma declareVar (scope : ScopeId) (name : String) : s.SameScopes (s.declareVar scope name) := by
  simp only [Store.declareVar]
  split
  · exact refl s
  · exact define s scope name .undefined true

lemma declareVars (scope : ScopeId) (names : List String) :
    s.SameScopes (names.foldl (fun s name => s.declareVar scope name) s) :=
  declareVars_kept (fun h _ => h.trans (define _ scope _ .undefined true)) (refl s)

lemma bindParams (scope : ScopeId) (params : List String) (args : List Value) :
    s.SameScopes (Machine.bindParams s scope params args) :=
  bindParams_kept (fun h _ v => h.trans (define _ scope _ v true)) (refl s) args

end Store.SameScopes

namespace Store.Grows

lemma refl (s : Store) : s.Grows s := ⟨List.prefix_rfl⟩

lemma trans {s s' s'' : Store} (h : s.Grows s') (h' : s'.Grows s'') : s.Grows s'' :=
  ⟨h.closures.trans h'.closures⟩

variable (s : Store)

lemma newClosure (c : Closure) : s.Grows (s.newClosure c).1 := by
  refine ⟨?_⟩
  simp [Store.newClosure]

lemma newScope (parent : Option ScopeId) : s.Grows (s.newScope parent).1 := ⟨List.prefix_rfl⟩

lemma hoistFunctions (e : Setting) (scope : ScopeId) (body : List NodeId) :
    s.Grows (s.hoistFunctions e scope body) :=
  hoistFunctions_kept (fun h _ => h.trans (newClosure _ _))
    (fun h _ v => h.trans (SameScopes.define _ scope _ v true).grows) (refl s) body

lemma hoist (e : Setting) (scope : ScopeId) (body : List NodeId) :
    s.Grows (s.hoist e scope body) :=
  (SameScopes.declareVars s scope _).grows.trans (hoistFunctions _ e scope body)

end Store.Grows

lemma Store.size_declareFunction (s : Store) (e : Setting) (scope : ScopeId) (id : NodeId) :
    (s.declareFunction e scope id).scopes.size = s.scopes.size := by
  simp only [Store.declareFunction]
  split
  · exact (SameScopes.define _ scope _ _ true).size
  · rfl

/-- Whether a node is the body of a function of the tree. -/
def Setting.IsBody (e : Setting) (body : NodeId) : Prop :=
  ∃ id, (∃ name params, e.tree.kind id = .functionDeclaration name params body) ∨
    ∃ name params, e.tree.kind id = .functionExpression name params body

/-- Every scope but the global one leads to an older one, and every closure is that of a function
of the tree in some scope. -/
structure Store.Scoped (e : Setting) (s : Store) : Prop where
  nonempty : 0 < s.scopes.size
  root : (s.scope globalScope).parent = none
  inner : ∀ id, 0 < id → id < s.scopes.size → ∃ p, (s.scope id).parent = some p ∧ p < id
  closures : ∀ c ∈ s.closures, c.scope < s.scopes.size ∧ e.IsBody c.body

namespace Store.Scoped

variable {e : Setting} {s s' : Store}

lemma older (h : s.Scoped e) : s.Older := by
  intro id p hp
  by_cases first : id = 0
  · subst first
    have root : (s.scope 0).parent = none := h.root
    rw [root] at hp
    cases hp
  · by_cases inside : id < s.scopes.size
    · obtain ⟨q, hq, lt⟩ := h.inner id (Nat.pos_of_ne_zero first) inside
      rw [hq] at hp
      cases hp
      exact lt
    · rw [scope_of_size_le (Nat.le_of_not_lt inside)] at hp
      cases hp

lemma of_same (h : s.Scoped e) (same : s.SameScopes s') : s'.Scoped e where
  nonempty := by rw [same.size]; exact h.nonempty
  root := (same.parent globalScope).trans h.root
  inner := by
    intro id pos inside
    rw [same.parent]
    exact h.inner id pos (same.size ▸ inside)
  closures := by
    rw [same.closures, same.size]
    exact h.closures

lemma newScope (h : s.Scoped e) {parent : Nat} (hp : parent < s.scopes.size) :
    (s.newScope (some parent)).1.Scoped e := by
  have scope (id : Nat) : (s.newScope (some parent)).1.scope id =
      if id = s.scopes.size then .empty (some parent) else s.scope id := by
    simp only [Store.newScope, Store.scope, Array.getElem?_push]
    split <;> rfl
  have size : (s.newScope (some parent)).1.scopes.size = s.scopes.size + 1 := by
    simp [Store.newScope]
  constructor
  · omega
  · have root : globalScope ≠ s.scopes.size := Nat.ne_of_lt h.nonempty
    rw [scope, if_neg root]
    exact h.root
  · intro id pos inside
    rw [size] at inside
    rw [scope]
    split
    case isTrue last => exact ⟨parent, rfl, last ▸ hp⟩
    case isFalse last => exact h.inner id pos (by omega)
  · intro c hc
    obtain ⟨hs, hb⟩ := h.closures c hc
    rw [size]
    exact ⟨Nat.lt_succ_of_lt hs, hb⟩

lemma newClosure (h : s.Scoped e) {c : Closure} (hs : c.scope < s.scopes.size)
    (hb : e.IsBody c.body) : (s.newClosure c).1.Scoped e where
  nonempty := h.nonempty
  root := h.root
  inner := h.inner
  closures := by
    intro d hd
    rcases Array.mem_push.mp hd with hd | rfl
    · exact h.closures d hd
    · exact ⟨hs, hb⟩

lemma hoistFunctions (h : s.Scoped e) {scope : ScopeId} (hs : scope < s.scopes.size)
    (body : List NodeId) :
    (s.hoistFunctions e scope body).Scoped e ∧
      (s.hoistFunctions e scope body).scopes.size = s.scopes.size := by
  refine hoistFunctions_kept (P := fun s' => s'.Scoped e ∧ s'.scopes.size = s.scopes.size)
    (fun h' kind => ?_) (fun h' _ v => ?_) ⟨h, rfl⟩ body
  · exact ⟨h'.1.newClosure (h'.2 ▸ hs) ⟨_, .inl ⟨_, _, kind⟩⟩, h'.2⟩
  · exact ⟨h'.1.of_same (.define _ scope _ v true),
      (SameScopes.define _ scope _ v true).size.trans h'.2⟩

lemma hoist (h : s.Scoped e) {scope : ScopeId} (hs : scope < s.scopes.size)
    (body : List NodeId) :
    (s.hoist e scope body).Scoped e ∧ (s.hoist e scope body).scopes.size = s.scopes.size := by
  have same := SameScopes.declareVars s scope (e.tree.varNames body)
  obtain ⟨hoisted, size⟩ := (h.of_same same).hoistFunctions (same.size ▸ hs) body
  exact ⟨hoisted, size.trans same.size⟩

lemma closure (h : s.Scoped e) (ref : Ref) :
    (s.closure ref).scope < s.scopes.size ∧
      (e.IsBody (s.closure ref).body ∨ (s.closure ref).body = 0) := by
  rw [Store.closure]
  cases hc : s.closures[ref]? with
  | none => exact ⟨h.nonempty, .inr rfl⟩
  | some c =>
    obtain ⟨hs, hb⟩ := h.closures c (Array.mem_of_getElem? hc)
    exact ⟨hs, .inl hb⟩

end Store.Scoped

namespace Machine

/-- The scopes that a machine may come back to are among those of its store. -/
structure Scoped (e : Setting) (m : Machine) : Prop where
  store : m.store.Scoped e
  activations : ∀ a ∈ m.calls.toList, a.scope < m.store.scopes.size
  restores : ∀ outer, .restoreScope outer ∈ m.pending → outer < m.store.scopes.size

namespace Scoped

variable {e : Setting} {m : Machine}

lemma scope_lt (h : m.Scoped e) : m.scope < m.store.scopes.size := by
  rw [Machine.scope, CallStack.top?_eq_head?]
  cases hc : m.calls.toList with
  | nil => exact h.store.nonempty
  | cons a as => exact h.activations a (by simp [hc])

lemma withStore (h : m.Scoped e) {s : Store} (hs : s.Scoped e)
    (size : m.store.scopes.size ≤ s.scopes.size) : Scoped e { m with store := s } where
  store := hs
  activations := fun a ha => Nat.lt_of_lt_of_le (h.activations a ha) size
  restores := fun outer ho => Nat.lt_of_lt_of_le (h.restores outer ho) size

lemma goTo (h : m.Scoped e) (control : Control) : (m.goTo control).Scoped e :=
  ⟨h.store, h.activations, h.restores⟩

lemma modifyTop (h : m.Scoped e) {f : Activation → Activation}
    (hf : ∀ a, a.scope < m.store.scopes.size → (f a).scope < m.store.scopes.size) :
    Scoped e { m with calls := m.calls.modifyTop f } where
  store := h.store
  activations := by
    intro a ha
    rw [CallStack.toList_modifyTop] at ha
    cases hc : m.calls.toList with
    | nil => simp [hc] at ha
    | cons b bs =>
      rw [hc, List.modifyHead_cons, List.mem_cons] at ha
      rcases ha with rfl | ha
      · exact hf b (h.activations b (by simp [hc]))
      · exact h.activations a (by simp [hc, ha])
  restores := h.restores

lemma setPc (h : m.Scoped e) (id : NodeId) : (m.setPc id).Scoped e := h.modifyTop fun _ ha => ha

lemma setScope (h : m.Scoped e) {scope : ScopeId} (hs : scope < m.store.scopes.size) :
    (m.setScope scope).Scoped e := h.modifyTop fun _ _ => hs

lemma push (h : m.Scoped e) {p : Pending}
    (hp : ∀ outer, p = .restoreScope outer → outer < m.store.scopes.size) :
    (m.push p).Scoped e where
  store := h.store
  activations := h.activations
  restores := by
    intro outer ho
    rcases List.mem_cons.mp ho with ho | ho
    · exact hp outer ho.symm
    · exact h.restores outer ho

end Scoped

end Machine

end ScriptDebugger
