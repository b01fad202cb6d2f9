import Mathlib.Data.List.Basic
import ScriptDebugger.Machine.Step
import ScriptDebugger.Proofs.Machine.Place
import ScriptDebugger.Proofs.Machine.Scopes
import ScriptDebugger.Proofs.Value.NestedEvaluate

/-!
# Declarations inside one function more

Two settings belong together if the nodes of one tree, but for its program, are
nodes of the other one, too (`Setting.Nests`). Then the same names are bound in
advance in both, and the same functions.
-/

namespace ScriptDebugger

/-- The nodes of a script but for its program are nodes of the other tree, too, with the same source
texts, its `debugger` statements do the same in both, and neither run halts at a breakpoint. -/
structure Setting.Nests (n : Nesting) (e e' : Setting) : Prop where
  kind : ∀ id, e.Inside id → e'.tree.kind id = e.tree.kind id
  child : ∀ id c : Nat, c ∈ e.tree.children id → c < id
  span : ∀ id, e.Inside id → e'.tree.span id = (e.tree.span id).move (n.offset + ·)
  text : ∀ id, e.Inside id → e'.textOf id = e.textOf id
  size : e.tree.size ≤ e'.tree.size
  suspends : ∀ id, e.tree.kind id = .debuggerStatement → e'.suspends = e.suspends
  quiet : ∀ id, Machine.haltsAt e id = false
  quiet' : ∀ id, Machine.haltsAt e' id = false

namespace Setting.Nests

variable {n : Nesting} {e e' : Setting} (h : e.Nests n e')
include h

lemma inside_child {id c : Nat} (hid : e.Inside id) (hc : c ∈ e.tree.children id) : e.Inside c :=
  Nat.lt_trans (Nat.succ_lt_succ (h.child id c hc)) hid

lemma nameOf {id : Nat} (hid : e.Inside id) : e'.tree.nameOf id = e.tree.nameOf id := by
  rw [Tree.nameOf, h.kind id hid, Tree.nameOf]

/-- What is read off the kinds of nodes is the same for nodes of the script. -/
lemma filterMap_kind {α : Type} (f : NodeKind NodeId → Option α) {ids : List NodeId}
    (hids : ∀ id ∈ ids, e.Inside id) :
    ids.filterMap (fun id => f (e'.tree.kind id)) = ids.filterMap fun id => f (e.tree.kind id) :=
  List.filterMap_congr fun id hid => by rw [h.kind id (hids id hid)]

lemma declaresLexically {body : List NodeId} (hbody : ∀ id ∈ body, e.Inside id) :
    e'.tree.declaresLexically body = e.tree.declaresLexically body := by
  induction body with
  | nil => rfl
  | cons id rest ih =>
    obtain ⟨hid, hrest⟩ := List.forall_mem_cons.mp hbody
    have rest := ih hrest
    simp only [Tree.declaresLexically, List.any_cons] at rest ⊢
    rw [rest, h.kind id hid]

lemma blockBody {id : Nat} (hid : e.Inside id) : e'.tree.blockBody id = e.tree.blockBody id := by
  rw [Tree.blockBody, h.kind id hid, Tree.blockBody]

lemma inside_blockBody {b : Nat} (hb : e.Inside b) : ∀ id ∈ e.tree.blockBody b, e.Inside id := by
  intro id hid
  refine h.inside_child hb ?_
  simp only [Tree.blockBody] at hid
  split at hid
  case h_1 body hk => simpa [Tree.children, hk, NodeKind.children] using hid
  case h_2 => cases hid

lemma lexicalInit {init : Option NodeId} (hinit : ∀ id, init = some id → e.Inside id) :
    Machine.lexicalInit e' init = Machine.lexicalInit e init := by
  cases init with
  | none => rfl
  | some id => simp only [Machine.lexicalInit, Option.any_some, h.kind id (hinit id rfl)]

lemma closure {id : Nat} (hid : e.Inside id) (name : Option String) {params : List NodeId}
    (hparams : ∀ p ∈ params, e.Inside p) (body : NodeId) (scope : ScopeId) :
    e'.closure id name params body (nestedScope scope) =
      (e.closure id name params body scope).nested n := by
  simp only [Setting.closure, Closure.nested, h.span id hid, h.text id hid,
    h.filterMap_kind NodeKind.name? hparams]

lemma declaredNames {ids : List NodeId} (hids : ∀ id ∈ ids, e.Inside id) :
    e'.tree.declaredNames ids = e.tree.declaredNames ids := by
  refine List.filterMap_congr fun id hid => ?_
  have inside := hids id hid
  rw [h.kind id inside]
  cases hk : e.tree.kind id with
  | variableDeclarator name init =>
    have inner : e.Inside name :=
      h.inside_child inside (by simp [Tree.children, hk, NodeKind.children])
    simp only [h.kind name inner]
  | _ => rfl

/-- The names are found at any depth, so it does not matter how deep to look. -/
lemma varNamesFrom {id fuel fuel' : Nat} (hid : e.Inside id) (hf : id < fuel) (hf' : id < fuel') :
    e'.tree.varNamesFrom fuel' id = e.tree.varNamesFrom fuel id := by
  induction id using Nat.strong_induction_on generalizing fuel fuel' with
  | h id ih =>
    obtain ⟨fuel, rfl⟩ := Nat.exists_eq_add_of_lt hf
    obtain ⟨fuel', rfl⟩ := Nat.exists_eq_add_of_lt hf'
    have sub {c : Nat} (hc : c ∈ e.tree.children id) :
        e'.tree.varNamesFrom (id + fuel') c = e.tree.varNamesFrom (id + fuel) c := by
      have lt := h.child id c hc
      exact ih c lt (h.inside_child hid hc) (Nat.lt_add_right _ lt) (Nat.lt_add_right _ lt)
    have subs (cs : List NodeId) (hcs : ∀ c ∈ cs, c ∈ e.tree.children id) :
        cs.flatMap (e'.tree.varNamesFrom (id + fuel')) =
          cs.flatMap (e.tree.varNamesFrom (id + fuel)) :=
      List.flatMap_congr fun c hc => sub (hcs c hc)
    simp only [Tree.varNamesFrom, h.kind id hid]
    cases hk : e.tree.kind id with
    | variableDeclaration kind declarators =>
      cases kind with
      | varKind =>
        refine h.declaredNames fun d hd => h.inside_child hid ?_
        simp [Tree.children, hk, NodeKind.children, hd]
      | _ => rfl
    | blockStatement body =>
      exact subs body fun c hc => by simp [Tree.children, hk, NodeKind.children, hc]
    | ifStatement test consequent alternate =>
      have first := sub (c := consequent) (by simp [Tree.children, hk, NodeKind.children])
      have second := subs alternate.toList fun c hc => by
        simp [Tree.children, hk, NodeKind.children, Option.mem_toList.mp hc]
      simp only [first, second]
    | forStatement init test update body =>
      have first := subs init.toList fun c hc => by
        simp [Tree.children, hk, NodeKind.children, Option.mem_toList.mp hc]
      have second := sub (c := body) (by simp [Tree.children, hk, NodeKind.children])
      simp only [first, second]
    | whileStatement test body =>
      exact sub (by simp [Tree.children, hk, NodeKind.children])
    | _ => rfl

lemma varNames {body : List NodeId} (hbody : ∀ id ∈ body, e.Inside id) :
    e'.tree.varNames body = e.tree.varNames body := by
  refine List.flatMap_congr fun id hid => ?_
  have inside := hbody id hid
  have lt : id < e.tree.size + 1 := Nat.lt_succ_of_lt (Nat.lt_of_succ_lt inside)
  exact h.varNamesFrom inside lt (Nat.lt_of_lt_of_le lt (Nat.succ_le_succ h.size))

end Setting.Nests

/-- The body of a closure is a node of the script. -/
lemma Store.Scoped.inside_body {e : Setting} {s : Store} (h : s.Scoped e)
    (hw : e.tree.WellFormed) (ref : Ref) {id : Nat} (hid : e.Inside id) :
    e.Inside (s.closure ref).body := by
  rcases (h.closure ref).2 with ⟨f, ⟨name, params, hk⟩ | ⟨name, params, hk⟩⟩ | first
  · exact ScriptDebugger.inside_child hw (p := f) (by simp [Tree.children, hk, NodeKind.children])
  · exact ScriptDebugger.inside_child hw (p := f) (by simp [Tree.children, hk, NodeKind.children])
  · rw [first]
    exact Nat.lt_of_le_of_lt (Nat.succ_le_succ (Nat.zero_le id)) hid

namespace Store

variable {n : Nesting} {s : Store}

lemma nested_declareVar (hs : 1 ≤ s.scopes.size) (scope : ScopeId) (name : String) :
    (s.declareVar scope name).nested n = (s.nested n).declareVar (nestedScope scope) name := by
  simp only [declareVar, scope_nested n hs, Scope.binds_nestedAt]
  split
  · rfl
  · exact nested_define n hs scope name .undefined true

lemma nested_bindParams (hs : 1 ≤ s.scopes.size) (scope : ScopeId) (params : List String)
    (args : List Value) :
    (Machine.bindParams s scope params args).nested n =
      Machine.bindParams (s.nested n) (nestedScope scope) params (args.map Value.nested) := by
  induction params generalizing s args with
  | nil => rfl
  | cons p ps ih =>
    have size (v : Value) : 1 ≤ (s.define scope p v true).scopes.size := by
      rwa [(SameScopes.define s scope p v true).size]
    cases args with
    | nil =>
      simp only [Machine.bindParams, ih (size _), nested_define n hs]
      rfl
    | cons v vs => simp only [Machine.bindParams, ih (size _), nested_define n hs, List.map_cons]

section

variable {e e' : Setting} (h : e.Nests n e') (hs : 1 ≤ s.scopes.size)
include h hs

lemma nested_declareFunction (scope : ScopeId) {id : Nat} (hid : e.Inside id) :
    (s.declareFunction e scope id).nested n =
      (s.nested n).declareFunction e' (nestedScope scope) id := by
  simp only [declareFunction, h.kind id hid]
  cases hk : e.tree.kind id with
  | functionDeclaration nameId params body =>
    have child {c : NodeId} (hc : c = nameId ∨ c ∈ params) : e.Inside c :=
      h.inside_child hid (by rcases hc with rfl | hc <;> simp [Tree.children, NodeKind.children, *])
    have size' : 1 ≤ (s.newClosure (e.closure id (some (e.tree.nameOf nameId)) params body
      scope)).1.scopes.size := hs
    simp only [nested_define n size', h.nameOf (child (.inl rfl)),
      h.closure hid _ (fun p hp => child (.inr hp)), newClosure_nested]
  | _ => rfl

lemma nested_hoistFunctions (scope : ScopeId) {body : List NodeId}
    (hbody : ∀ id ∈ body, e.Inside id) :
    (s.hoistFunctions e scope body).nested n =
      (s.nested n).hoistFunctions e' (nestedScope scope) body := by
  induction body generalizing s with
  | nil => rfl
  | cons id rest ih =>
    obtain ⟨hid, hrest⟩ := List.forall_mem_cons.mp hbody
    have declared := nested_declareFunction h hs scope hid
    have size : 1 ≤ (s.declareFunction e scope id).scopes.size := by
      rwa [s.size_declareFunction e scope id]
    simp only [hoistFunctions, List.foldl_cons] at ih ⊢
    rw [ih size hrest, declared]

lemma nested_hoist (scope : ScopeId) {body : List NodeId} (hbody : ∀ id ∈ body, e.Inside id) :
    (s.hoist e scope body).nested n = (s.nested n).hoist e' (nestedScope scope) body := by
  have declared (names : List String) {s : Store} (hs : 1 ≤ s.scopes.size) :
      (names.foldl (fun s name => s.declareVar scope name) s).nested n =
        names.foldl (fun s name => s.declareVar (nestedScope scope) name) (s.nested n) := by
    induction names generalizing s with
    | nil => rfl
    | cons name rest ih =>
      have size : 1 ≤ (s.declareVar scope name).scopes.size := by
        rwa [(SameScopes.declareVar s scope name).size]
      rw [List.foldl_cons, List.foldl_cons, ih size, nested_declareVar hs]
  have size : 1 ≤ ((e.tree.varNames body).foldl (fun s name => s.declareVar scope name)
      s).scopes.size := by
    rwa [(SameScopes.declareVars s scope _).size]
  rw [hoist, nested_hoistFunctions h size scope hbody, declared _ hs, hoist, h.varNames hbody]

end

end Store

end ScriptDebugger
