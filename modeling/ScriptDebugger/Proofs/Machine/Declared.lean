import ScriptDebugger.Machine.Interpreter
import ScriptDebugger.Proofs.Machine.Scopes
import ScriptDebugger.Proofs.Syntax.WellFormed
import ScriptDebugger.Proofs.Value.Bindings

/-!
# Names that a script declares

In a store of a run the global scope binds what it has been given at first, all
of it constant, and every other scope binds only names that the tree declares
(`Store.Confined`). The changes that a run makes to its store keep this: a name
is defined in an inner scope, where the tree declares it, and an assignment
reaches no constant.
-/

namespace ScriptDebugger

/-- The nodes of the names that a node declares. -/
def NodeKind.binders {α : Type} : NodeKind α → List α
  | variableDeclarator name _ => [name]
  | functionDeclaration name params _ => name :: params
  | functionExpression name params _ => name.toList ++ params
  | _ => []

lemma NodeKind.mem_children_of_binders {α : Type} {kind : NodeKind α} {n : α}
    (h : n ∈ kind.binders) : n ∈ kind.children := by
  cases kind with
  | variableDeclarator name init => exact List.mem_cons.mpr (.inl (List.mem_singleton.mp h))
  | functionDeclaration name params body => exact List.mem_append_left [body] h
  | functionExpression name params body => exact List.mem_append_left [body] h
  | _ => cases h

/-- Some node of the tree declares the name. -/
def Tree.Declares (t : Tree) (name : String) : Prop :=
  ∃ id, ∃ n ∈ (t.kind id).binders, t.kind n = .identifier name

namespace Tree

variable {t : Tree}

lemma kind_of_name? {id : NodeId} {name : String} (h : (t.kind id).name? = some name) :
    t.kind id = .identifier name := by
  cases hk : t.kind id <;> rw [hk] at h <;> cases h
  rfl

lemma Declares.of_name? {id n : NodeId} (hn : n ∈ (t.kind id).binders) {name : String}
    (h : (t.kind n).name? = some name) : t.Declares name := ⟨id, n, hn, kind_of_name? h⟩

lemma name?_of_admits {n : NodeId} (h : NodeKind.Role.name.admits (t.kind n) = true) :
    (t.kind n).name? = some (t.nameOf n) := by
  cases hk : t.kind n <;> rw [hk] at h <;> cases h
  rw [nameOf, hk]
  rfl

lemma declares_nameOf {id n : NodeId} (hn : n ∈ (t.kind id).binders)
    (admits : NodeKind.Role.name.admits (t.kind n) = true) : t.Declares (t.nameOf n) :=
  .of_name? hn (name?_of_admits admits)

variable (hw : t.WellFormed)
include hw

lemma WellFormed.declares_declarator {id nameId : NodeId} {init : Option NodeId}
    (hk : t.kind id = .variableDeclarator nameId init) : t.Declares (t.nameOf nameId) := by
  have shape := hw.shape id
  simp only [children, hk, NodeKind.roles, NodeKind.children, List.forall₂_cons] at shape
  have binder : nameId ∈ (t.kind id).binders := by simp [hk, NodeKind.binders]
  exact declares_nameOf binder shape.1

lemma WellFormed.declares_function {id nameId body : NodeId} {params : List NodeId}
    (hk : t.kind id = .functionDeclaration nameId params body) : t.Declares (t.nameOf nameId) := by
  have shape := hw.shape id
  simp only [children, hk, NodeKind.roles, NodeKind.children, List.cons_append,
    List.forall₂_cons] at shape
  have binder : nameId ∈ (t.kind id).binders := by simp [hk, NodeKind.binders]
  exact declares_nameOf binder shape.1

omit hw

lemma declares_of_declaredNames {declarators : List NodeId} {name : String}
    (h : name ∈ t.declaredNames declarators) : t.Declares name := by
  obtain ⟨d, -, hd⟩ := List.mem_filterMap.mp h
  split at hd
  case h_1 n init hk =>
    have binder : n ∈ (t.kind d).binders := by simp [hk, NodeKind.binders]
    exact .of_name? binder hd
  case h_2 => cases hd

lemma declares_of_varNamesFrom {fuel : Nat} {id : NodeId} {name : String}
    (h : name ∈ t.varNamesFrom fuel id) : t.Declares name := by
  induction fuel generalizing id with
  | zero => cases h
  | succ fuel ih =>
    simp only [varNamesFrom] at h
    split at h
    case h_1 => exact declares_of_declaredNames h
    case h_2 =>
      obtain ⟨c, -, hc⟩ := List.mem_flatMap.mp h
      exact ih hc
    case h_3 =>
      rcases List.mem_append.mp h with h | h
      · exact ih h
      · obtain ⟨c, -, hc⟩ := List.mem_flatMap.mp h
        exact ih hc
    case h_4 =>
      rcases List.mem_append.mp h with h | h
      · obtain ⟨c, -, hc⟩ := List.mem_flatMap.mp h
        exact ih hc
      · exact ih h
    case h_5 => exact ih h
    case h_6 => cases h

lemma declares_of_varNames {body : List NodeId} {name : String} (h : name ∈ t.varNames body) :
    t.Declares name := by
  obtain ⟨id, -, hid⟩ := List.mem_flatMap.mp h
  exact declares_of_varNamesFrom hid

/-- The parameters of a function are declared by its node. -/
lemma declares_of_params {id : NodeId} {params : List NodeId}
    (hp : ∀ p ∈ params, p ∈ (t.kind id).binders) {name : String}
    (h : name ∈ params.filterMap fun p => (t.kind p).name?) : t.Declares name := by
  obtain ⟨p, mem, hn⟩ := List.mem_filterMap.mp h
  exact .of_name? (hp p mem) hn

end Tree

namespace Store

/-- What every script finds in the global scope. -/
def globals : Scope := initial.scope globalScope

lemma constant_of_globals {b : Binding} (hb : b ∈ globals.bindings) : b.isMutable = false := by
  have all : (globals.bindings.all fun b => !b.isMutable) = true := by decide +kernel
  simpa using List.all_eq_true.mp all b hb

/-- A scope other than the global one. -/
structure Inner (s : Store) (id : ScopeId) : Prop where
  pos : 0 < id
  lt_size : id < s.scopes.size

lemma Inner.mono {s s' : Store} {id : ScopeId} (h : s.Inner id)
    (size : s.scopes.size ≤ s'.scopes.size) : s'.Inner id :=
  ⟨h.pos, Nat.lt_of_lt_of_le h.lt_size size⟩

lemma size_newScope (s : Store) (parent : Option ScopeId) :
    (s.newScope parent).1.scopes.size = s.scopes.size + 1 := by
  simp [newScope]

/-- The global scope is as it was at first, and every other one binds only names that the tree
declares. -/
structure Confined (e : Setting) (s : Store) : Prop extends s.Scoped e where
  made : s.Made
  globals : s.scope globalScope = Store.globals
  declared : ∀ id, 0 < id → ∀ name ∈ (s.scope id).names, e.tree.Declares name
  params : ∀ c ∈ s.closures, ∀ name ∈ c.params, e.tree.Declares name

namespace Confined

variable {e : Setting} {s : Store} (h : s.Confined e)
include h

lemma inner_newScope (parent : Option ScopeId) : (s.newScope parent).1.Inner s.scopes.size :=
  ⟨h.nonempty, Nat.lt_of_lt_of_eq (Nat.lt_succ_self _) (s.size_newScope parent).symm⟩

lemma of_sameBindings {s' : Store} (same : s.SameBindings s') : s'.Confined e where
  toScoped := h.toScoped.of_same (.of_sameBindings same)
  made := h.made.elsewhere same.scopes
  globals := by rw [same.scope]; exact h.globals
  declared := by
    intro id pos
    rw [same.scope]
    exact h.declared id pos
  params := by rw [same.closures]; exact h.params

lemma newScope {parent : ScopeId} (hp : parent < s.scopes.size) :
    (s.newScope (some parent)).1.Confined e where
  toScoped := h.toScoped.newScope hp
  made := h.made.newScope hp
  globals := by
    have first : globalScope ≠ s.scopes.size := Nat.ne_of_lt h.nonempty
    rw [scope_newScope, if_neg first]
    exact h.globals
  declared := by
    intro id pos name hn
    rw [scope_newScope] at hn
    split at hn
    · cases hn
    · exact h.declared id pos name hn
  params := h.params

lemma newClosure {c : Closure} (hs : c.scope < s.scopes.size) (hb : e.IsBody c.body)
    (hp : ∀ name ∈ c.params, e.tree.Declares name) : (s.newClosure c).1.Confined e where
  toScoped := h.toScoped.newClosure hs hb
  made := h.made.elsewhere rfl
  globals := h.globals
  declared := h.declared
  params := by
    intro d hd
    rcases Array.mem_push.mp hd with hd | rfl
    · exact h.params d hd
    · exact hp

lemma define {id : ScopeId} (pos : 0 < id) {name : String} (hn : e.tree.Declares name) (v : Value)
    (isMutable : Bool) : (s.define id name v isMutable).Confined e where
  toScoped := h.toScoped.of_same (.define s id name v isMutable)
  made := h.made.define id name v isMutable
  globals := by
    rw [scope_define_eq, if_neg fun here => absurd here.1 (Nat.ne_of_gt pos)]
    exact h.globals
  declared := by
    intro i hi n hm
    rw [scope_define_eq] at hm
    split at hm
    case isTrue =>
      rw [Scope.names_define] at hm
      split at hm
      · exact h.declared i hi n hm
      · rcases List.mem_append.mp hm with hm | hm
        · exact h.declared i hi n hm
        · rw [List.mem_singleton.mp hm]
          exact hn
    case isFalse => exact h.declared i hi n hm
  params := h.params

/-- An assignment changes no global, and only a name that the tree declares. -/
lemma of_assignTarget {scope owner : ScopeId} {name : String}
    (target : s.assignTarget scope name = .ok owner) : 0 < owner ∧ e.tree.Declares name := by
  simp only [assignTarget] at target
  split at target
  case h_1 => cases target
  case h_2 id hid =>
    split at target
    case isFalse => cases target
    case isTrue assignable =>
      cases target
      obtain ⟨b, found, isMutable⟩ := (Option.any_eq_true ..).mp assignable
      obtain ⟨mem, same⟩ := (Scope.find?_eq_some_iff ..).mp found
      have pos : 0 < owner := by
        refine Nat.pos_of_ne_zero fun zero => ?_
        subst zero
        have constant := constant_of_globals (b := b) (by rw [← h.globals]; exact mem)
        rw [constant] at isMutable
        cases isMutable
      exact ⟨pos, same ▸ h.declared owner pos b.name (List.mem_map_of_mem mem)⟩

lemma params_closure (ref : Ref) : ∀ name ∈ (s.closure ref).params, e.tree.Declares name := by
  rw [Store.closure]
  cases hc : s.closures[ref]? with
  | none =>
    intro name member
    exact absurd member List.not_mem_nil
  | some c => exact h.params c (Array.mem_of_getElem? hc)

variable {scope : ScopeId}

lemma declareVars (pos : 0 < scope) {names : List String}
    (hn : ∀ name ∈ names, e.tree.Declares name) :
    (names.foldl (fun s name => s.declareVar scope name) s).Confined e :=
  declareVars_kept (fun h listed => h.define pos (hn _ listed) .undefined true) h

lemma bindParams (pos : 0 < scope) {params : List String}
    (hp : ∀ name ∈ params, e.tree.Declares name) (args : List Value) :
    (Machine.bindParams s scope params args).Confined e :=
  bindParams_kept (fun h listed v => h.define pos (hp _ listed) v true) h args

variable (hw : e.tree.WellFormed)
include hw

lemma hoistFunctions (inner : s.Inner scope) (body : List NodeId) :
    (s.hoistFunctions e scope body).Confined e := by
  -- a function can only be made in a scope that there still is
  suffices kept : (s.hoistFunctions e scope body).Confined e ∧
      (s.hoistFunctions e scope body).Inner scope from kept.1
  refine hoistFunctions_kept (P := fun s => s.Confined e ∧ s.Inner scope) ?_ ?_ ⟨h, inner⟩ body
  · rintro s id nameId b params ⟨h, inner⟩ kind
    have binders : ∀ p ∈ params, p ∈ (e.tree.kind id).binders := by
      rw [kind]
      exact fun p hp => List.mem_cons_of_mem _ hp
    have made := h.newClosure
      (c := e.closure id (some (e.tree.nameOf nameId)) params b scope) inner.lt_size
      ⟨id, .inl ⟨nameId, params, kind⟩⟩ fun _ hn => Tree.declares_of_params binders hn
    exact ⟨made, inner.mono (Nat.le_refl _)⟩
  · rintro s id nameId b params ⟨h, inner⟩ kind v
    exact ⟨h.define inner.pos (hw.declares_function kind) v true,
      inner.mono (Nat.le_of_eq (SameScopes.define s scope _ v true).size.symm)⟩

lemma hoist (inner : s.Inner scope) (body : List NodeId) : (s.hoist e scope body).Confined e := by
  have vars := h.declareVars inner.pos fun name (hn : name ∈ e.tree.varNames body) =>
    Tree.declares_of_varNames hn
  exact vars.hoistFunctions hw
    (inner.mono (Nat.le_of_eq (SameScopes.declareVars s scope _).size.symm)) body

end Confined

/-- Every scope leads outward to the global one. -/
lemma Scoped.exists_path {e : Setting} {s : Store} (h : s.Scoped e) {id : Nat}
    (hid : id < s.scopes.size) : ∃ ids, s.Path globalScope id ids := by
  induction id using Nat.strongRecOn with
  | _ id ih =>
    by_cases zero : id = globalScope
    · exact ⟨[], zero ▸ .here⟩
    · obtain ⟨p, hp, lt⟩ := h.inner id (Nat.pos_of_ne_zero zero) hid
      obtain ⟨ids, rest⟩ := ih p lt (Nat.lt_trans lt hid)
      exact ⟨id :: ids, .outward zero hp rest⟩

end Store

end ScriptDebugger
