import ScriptDebugger.Machine.Interpreter
import ScriptDebugger.Proofs.Syntax.Ancestor

/-!
# Nodes that a run has come to

A run comes to a node within an activation of the function that the node
belongs to, and after it has asked whether to halt before the statement around
it. `Setting.Passed` says so of a node; what is passed on from a node to its
children is `Passed.parts` for expressions and statements, and `body_parts` for
the statements of a function, a program or a block.
-/

namespace ScriptDebugger

open NodeKind

namespace Setting

variable (e : Setting)

/-- A node of the tree, but not its root. -/
def Inside (id : Nat) : Prop := id + 1 < e.tree.size

/-- A node that belongs to `o`. -/
structure Site (o id : NodeId) : Prop where
  inside : e.Inside id
  owner : e.tree.owner id = o

/-- A node that belongs to `o` and whose statement does not halt the run. -/
structure Passed (o id : NodeId) : Prop extends e.Site o id where
  clear : ∀ s, e.tree.statementOf id = some s → Machine.haltsAt e s = false

/-- A node that may be evaluated in an activation of `o`. -/
structure Evaluates (o id : NodeId) : Prop extends e.Passed o id where
  expression : (e.tree.kind id).isExpression = true

/-- A node that may be executed in an activation of `o`; whether the run halts before it has not
been asked yet. -/
structure Executes (o id : NodeId) : Prop extends e.Site o id where
  statement : e.tree.isStatement id = true

/-- What is known of a child of a node that has been passed. -/
def Part (o : NodeId) (r : Role) (c : NodeId) : Prop :=
  r.admits (e.tree.kind c) = true ∧ if r.isStatement then e.Executes o c else e.Passed o c

end Setting

variable {e : Setting}

namespace Setting

lemma Part.evaluates {o c : NodeId} (h : e.Part o .expression c) : e.Evaluates o c :=
  ⟨h.2, h.1⟩

lemma Part.executes {o c : NodeId} (h : e.Part o .statement c) : e.Executes o c := h.2

end Setting

section Children

variable (h : e.tree.WellFormed)
include h

lemma inside_child {p c : Nat} (hc : c ∈ e.tree.children p) : e.Inside c := by
  have := h.child_lt p c hc
  have := Tree.lt_size_of_mem_children hc
  simp only [Setting.Inside]
  omega

/-- What opens a `for` is no statement. -/
lemma isStatement_init {p c : Nat} {init test update : Option NodeId} {body : NodeId}
    (hk : e.tree.kind p = .forStatement init test update body) (hc : init = some c) :
    e.tree.isStatement c = false := by
  have mem : c ∈ e.tree.children p := by simp [Tree.children, hk, NodeKind.children, hc]
  have parent := (h.parent_iff c p).mpr mem
  simp [Tree.isStatement, parent, hk, hc]

lemma isStatement_body {p : Nat} {init test update : Option NodeId} {body : NodeId}
    (hk : e.tree.kind p = .forStatement init test update body) :
    e.tree.isStatement body = true := by
  have mem : body ∈ e.tree.children p := by simp [Tree.children, hk, NodeKind.children]
  have admits : (e.tree.kind body).isStatement = true := by
    have shape := h.shape p
    simp only [Tree.children, hk, NodeKind.children, NodeKind.roles] at shape
    rw [forall₂_append_iff (by simp)] at shape
    exact (List.forall₂_cons.mp shape.2).1
  refine h.isStatement_child mem admits fun init' test' update' body' hk' => ?_
  rw [hk] at hk'
  cases hk'
  rintro rfl
  have nodup := h.nodup p
  simp [Tree.children, hk, NodeKind.children, List.nodup_append] at nodup

omit h in
lemma isStatement_of_admits {r : Role} {kind : NodeKind NodeId} (hr : r ≠ .forInit)
    (admits : r.admits kind = true) : kind.isStatement = r.isStatement := by
  cases r <;> cases kind <;> first | rfl | exact absurd rfl hr | cases admits

omit h in
lemma forInit_of_mem_roles {kind : NodeKind NodeId} (hr : .forInit ∈ kind.roles) :
    ∃ init test update body, kind = .forStatement init test update body := by
  cases kind <;> simp [NodeKind.roles] at hr ⊢
  split at hr <;> cases hr

/-- Exactly the children in a statement's place stand in statement position. -/
lemma isStatement_parts (p : Nat) :
    List.Forall₂ (fun r c => e.tree.isStatement c = r.isStatement) (e.tree.kind p).roles
      (e.tree.children p) := by
  by_cases hfor : ∃ init test update body, e.tree.kind p = .forStatement init test update body
  · obtain ⟨init, test, update, body, hk⟩ := hfor
    have shape := h.shape p
    have inInit : ∀ c, init = some c → e.tree.isStatement c = false :=
      fun c hc => isStatement_init h hk hc
    have inBody := isStatement_body h hk
    simp only [Tree.children, hk, NodeKind.children, NodeKind.roles] at shape ⊢
    cases init <;> cases test <;> cases update <;>
      simp_all [Role.admits, Role.isStatement, Tree.isStatement_of_isExpression]
  · refine forall₂_imp_mem (h.shape p) fun r hr c hc admits => ?_
    have other : r ≠ .forInit := by
      rintro rfl
      exact hfor (forInit_of_mem_roles hr)
    have kind := isStatement_of_admits other admits
    cases hs : r.isStatement with
    | true =>
      rw [hs] at kind
      exact h.isStatement_child hc kind fun init test update body hk =>
        absurd ⟨init, test, update, body, hk⟩ hfor
    | false => rw [Tree.isStatement, kind, hs, Bool.false_and]

namespace Setting

/-- What has been passed hands that on to its children; those that are statements are asked about
on their own. -/
theorem Passed.parts {o id : Nat} (hp : e.Passed o id) (hf : (e.tree.kind id).isFunction = false) :
    List.Forall₂ (e.Part o) (e.tree.kind id).roles (e.tree.children id) := by
  have shape := forall₂_imp_mem (h.shape id) fun r _ c hc admits => And.intro admits hc
  refine List.Forall₂.mp (fun r c hadmits hs => ?_) shape (isStatement_parts h id)
  obtain ⟨admits, hc⟩ := hadmits
  have inside := inside_child h hc
  have owner : e.tree.owner c = o := by
    rw [h.owner_child hc, hf]
    exact hp.owner
  refine ⟨admits, ?_⟩
  split
  case isTrue hr => exact ⟨⟨inside, owner⟩, hs.trans hr⟩
  case isFalse hr =>
    refine ⟨⟨inside, owner⟩, fun s hstatement => hp.clear s ?_⟩
    rwa [h.statementOf_child hc (hs.trans (by simpa using hr))] at hstatement

/-- What a member access consists of. -/
lemma Passed.member {o id : Nat} (hp : e.Passed o id) {object key : NodeId} {computed : Bool}
    (hk : e.tree.kind id = .memberExpression object key computed) :
    e.Evaluates o object ∧ e.Inside key ∧ (computed = true → e.Evaluates o key) := by
  have parts := hp.parts h (by simp [hk, NodeKind.isFunction])
  simp only [Tree.children, hk, NodeKind.roles, NodeKind.children, List.forall₂_cons] at parts
  obtain ⟨hobject, hkey, -⟩ := parts
  cases computed with
  | true => exact ⟨hobject.evaluates, hkey.evaluates.inside, fun _ => hkey.evaluates⟩
  | false =>
    have passed : e.Passed o key := hkey.2
    exact ⟨hobject.evaluates, passed.inside, fun hc => by cases hc⟩

/-- What a `for` consists of. -/
lemma Passed.forStatement {o id : Nat} (hp : e.Passed o id)
    {init test update : Option NodeId} {body : NodeId}
    (hk : e.tree.kind id = .forStatement init test update body) :
    (∀ c, init = some c → e.Part o .forInit c) ∧ (∀ c, test = some c → e.Evaluates o c) ∧
      (∀ c, update = some c → e.Evaluates o c) ∧ e.Executes o body := by
  have parts := hp.parts h (by simp [hk, NodeKind.isFunction])
  simp only [Tree.children, hk, NodeKind.roles, NodeKind.children] at parts
  rw [forall₂_append_iff (by simp), forall₂_append_iff (by simp), forall₂_append_iff (by simp),
    forall₂_option, forall₂_option, forall₂_option, List.forall₂_cons] at parts
  obtain ⟨⟨⟨hinit, htest⟩, hupdate⟩, hbody, -⟩ := parts
  exact ⟨hinit, fun c hc => (htest c hc).evaluates, fun c hc => (hupdate c hc).evaluates,
    hbody.executes⟩

/-- A statement that does not halt the run is passed. -/
lemma Executes.passed {o id : Nat} (hx : e.Executes o id)
    (hh : Machine.haltsAt e id = false) : e.Passed o id := by
  refine ⟨hx.toSite, fun s hs => ?_⟩
  rw [h.statementOf_of_isStatement hx.statement] at hs
  cases hs
  exact hh

/-- The statements of a block or a program belong where it belongs. -/
lemma executes_statements {p : Nat} {body : List NodeId}
    (hk : e.tree.kind p = .blockStatement body ∨ e.tree.kind p = .program body) :
    ∀ id ∈ body, e.Executes (e.tree.owner p) id := by
  intro id hid
  have children : e.tree.children p = body := by
    rcases hk with hk | hk <;> simp [Tree.children, hk, NodeKind.children]
  have roles : (e.tree.kind p).roles = List.replicate body.length .statement := by
    rcases hk with hk | hk <;> simp [hk, NodeKind.roles]
  have noFunction : (e.tree.kind p).isFunction = false := by
    rcases hk with hk | hk <;> simp [hk, NodeKind.isFunction]
  have hc : id ∈ e.tree.children p := children ▸ hid
  have statements := isStatement_parts h p
  rw [children, roles] at statements
  refine ⟨⟨inside_child h hc, ?_⟩, forall₂_replicate.mp statements id hid⟩
  rw [h.owner_child hc, noFunction]
  rfl

lemma executes_blockBody (b : Nat) : ∀ id ∈ e.tree.blockBody b, e.Executes (e.tree.owner b) id := by
  cases hk : e.tree.kind b with
  | blockStatement body =>
    have := executes_statements h (.inl hk)
    simpa only [Tree.blockBody, hk] using this
  | _ => simp [Tree.blockBody, hk]

lemma executes_programBody (root : Nat) :
    ∀ id ∈ Interpreter.programBody e.tree root, e.Executes (e.tree.owner root) id := by
  cases hk : e.tree.kind root with
  | program body =>
    have := executes_statements h (.inr hk)
    simpa only [Interpreter.programBody, hk] using this
  | _ => simp [Interpreter.programBody, hk]

end Setting

end Children

end ScriptDebugger
