import ScriptDebugger.Proofs.Syntax.WellFormed

/-!
# The statement and the function around a node

Both are found by climbing parent links with a bound on their number. In a
well-formed tree the bound suffices, so a child leads where its parent leads,
unless the child is a statement or the parent a function itself.
-/

namespace ScriptDebugger.Tree

/-- Climbs at most `fuel` parents to the nearest function around a node. -/
def ownerFrom (t : Tree) : (fuel : Nat) → NodeId → NodeId
  | 0, id => id
  | fuel + 1, id =>
    match t.parent id with
    | none => id
    | some p => if (t.kind p).isFunction then p else t.ownerFrom fuel p

/-- The function that a node belongs to, or the program if no function is around it. -/
def owner (t : Tree) (id : NodeId) : NodeId := t.ownerFrom (t.size + 1) id

namespace WellFormed

variable {t : Tree} (h : t.WellFormed)
include h

lemma lt_parent {c p : Nat} (hp : t.parent c = some p) : c < p ∧ p < t.size :=
  ⟨h.child_lt p c ((h.parent_iff c p).mp hp), lt_size_of_mem_children ((h.parent_iff c p).mp hp)⟩

lemma parent_of_size_le {id : Nat} (hid : t.size ≤ id + 1) : t.parent id = none := by
  cases hp : t.parent id with
  | none => rfl
  | some p =>
    have := h.lt_parent hp
    omega

lemma ownerFrom_succ {fuel id : Nat} (hid : t.size ≤ id + fuel) :
    t.ownerFrom (fuel + 1) id = t.ownerFrom fuel id := by
  induction fuel generalizing id with
  | zero => simp only [ownerFrom, h.parent_of_size_le (by omega : t.size ≤ id + 1)]
  | succ fuel ih =>
    rw [ownerFrom, ownerFrom]
    cases hp : t.parent id with
    | none => rfl
    | some p =>
      have := h.lt_parent hp
      simp only [ih (by omega : t.size ≤ p + fuel)]

lemma owner_eq (id : Nat) :
    t.owner id = match t.parent id with
      | none => id
      | some p => if (t.kind p).isFunction then p else t.owner p := by
  conv => lhs; rw [owner, ownerFrom]
  cases hp : t.parent id with
  | none => rfl
  | some p =>
    have := h.lt_parent hp
    simp only [owner, h.ownerFrom_succ (by omega : t.size ≤ p + t.size)]

/-- A child of a function belongs to it; any other child belongs where its parent belongs. -/
lemma owner_child {c p : Nat} (hc : c ∈ t.children p) :
    t.owner c = if (t.kind p).isFunction then p else t.owner p := by
  rw [h.owner_eq c, (h.parent_iff c p).mpr hc]

lemma enclosingStatement_succ {k id : Nat} (hid : t.size ≤ id + k + 1) :
    t.enclosingStatement (k + 2) id = t.enclosingStatement (k + 1) id := by
  induction k generalizing id with
  | zero => simp only [enclosingStatement, h.parent_of_size_le (by omega : t.size ≤ id + 1),
      Option.bind_none]
  | succ k ih =>
    rw [enclosingStatement, enclosingStatement]
    cases hp : t.parent id with
    | none => rfl
    | some p =>
      have := h.lt_parent hp
      simp only [Option.bind_some, ih (by omega : t.size ≤ p + k + 1)]

lemma statementOf_eq (id : Nat) :
    t.statementOf id = if t.isStatement id then some id else (t.parent id).bind t.statementOf := by
  conv => lhs; rw [statementOf, enclosingStatement]
  cases hp : t.parent id with
  | none => rfl
  | some p =>
    have hlt := h.lt_parent hp
    obtain ⟨k, hk⟩ : ∃ k, t.size = k + 1 := ⟨t.size - 1, by omega⟩
    simp only [Option.bind_some, statementOf, hk]
    rw [h.enclosingStatement_succ (by omega : t.size ≤ p + k + 1)]

lemma statementOf_of_isStatement {id : Nat} (hs : t.isStatement id = true) :
    t.statementOf id = some id := by
  rw [h.statementOf_eq, if_pos hs]

/-- What is no statement itself belongs to the statement of its parent. -/
lemma statementOf_child {c p : Nat} (hc : c ∈ t.children p) (hs : t.isStatement c = false) :
    t.statementOf c = t.statementOf p := by
  rw [h.statementOf_eq c, hs, (h.parent_iff c p).mpr hc]
  rfl

lemma lt_size_of_statementOf {id s : Nat} (hid : id < t.size) (hs : t.statementOf id = some s) :
    s < t.size := by
  have climb (fuel : Nat) {id : Nat} (hid : id < t.size)
      (hs : t.enclosingStatement fuel id = some s) : s < t.size := by
    induction fuel generalizing id with
    | zero => cases hs
    | succ fuel ih =>
      rw [enclosingStatement] at hs
      split at hs
      · cases hs
        exact hid
      · obtain ⟨p, hp, hs⟩ := Option.bind_eq_some_iff.mp hs
        exact ih (h.lt_parent hp).2 hs
  exact climb _ hid hs

/-- A statement that is a child stands in statement position unless it opens a `for`. -/
lemma isStatement_child {c p : Nat} (hc : c ∈ t.children p) (hs : (t.kind c).isStatement = true)
    (hfor : ∀ init test update body, t.kind p = .forStatement init test update body →
      init ≠ some c) : t.isStatement c = true := by
  simp only [isStatement, hs, Bool.true_and, (h.parent_iff c p).mpr hc, Option.map_some]
  cases hk : t.kind p with
  | forStatement init test update body => simpa using hfor init test update body hk
  | _ => rfl

end WellFormed

lemma isStatement_of_isExpression {t : Tree} {id : NodeId} (h : (t.kind id).isExpression = true) :
    t.isStatement id = false := by
  rw [isStatement, NodeKind.isStatement_of_isExpression h, Bool.false_and]

section Tag

variable (t : Tree) (tagged : NodeId)

lemma getElem?_tag (i : Nat) :
    (t.tag tagged).nodes[i]? =
      t.nodes[i]?.map fun n => if tagged = i then { n with tagged := true } else n := by
  simp only [tag, Array.getElem?_modify]
  by_cases h : tagged = i <;> simp [h]

lemma size_tag : (t.tag tagged).size = t.size := by simp [tag, size]

lemma kind_tag (id : NodeId) : (t.tag tagged).kind id = t.kind id := by
  simp only [kind, getElem?_tag]
  cases t.nodes[id]? with
  | none => rfl
  | some n => by_cases h : tagged = id <;> simp [h]

lemma span_tag (id : NodeId) : (t.tag tagged).span id = t.span id := by
  simp only [span, getElem?_tag]
  cases t.nodes[id]? with
  | none => rfl
  | some n => by_cases h : tagged = id <;> simp [h]

lemma parent_tag (id : NodeId) : (t.tag tagged).parent id = t.parent id := by
  simp only [parent, getElem?_tag]
  cases t.nodes[id]? with
  | none => rfl
  | some n => by_cases h : tagged = id <;> simp [h]

lemma children_tag (id : NodeId) : (t.tag tagged).children id = t.children id := by
  rw [children, kind_tag, children]

lemma isStatement_tag (id : NodeId) : (t.tag tagged).isStatement id = t.isStatement id := by
  have kinds : (t.tag tagged).kind = t.kind := funext (t.kind_tag tagged)
  rw [isStatement, parent_tag, kinds, isStatement]

lemma statementOf_tag (id : NodeId) : (t.tag tagged).statementOf id = t.statementOf id := by
  have climb (fuel : Nat) (id : NodeId) :
      (t.tag tagged).enclosingStatement fuel id = t.enclosingStatement fuel id := by
    induction fuel generalizing id with
    | zero => rfl
    | succ fuel ih =>
      have same : (t.tag tagged).enclosingStatement fuel = t.enclosingStatement fuel := funext ih
      simp only [enclosingStatement, isStatement_tag, parent_tag, same]
  rw [statementOf, size_tag, climb, statementOf]

lemma WellFormed.tag {t : Tree} (h : t.WellFormed) (tagged : NodeId) :
    (t.tag tagged).WellFormed where
  root := by rw [size_tag]; exact h.root
  program := by rw [size_tag, kind_tag]; exact h.program
  only_program := fun id body hb => by
    rw [kind_tag] at hb
    rw [size_tag]
    exact h.only_program id body hb
  shape := fun id => by simp only [kind_tag, children_tag]; exact h.shape id
  child_lt := fun p c hc => by rw [children_tag] at hc; exact h.child_lt p c hc
  unique := fun p q c hp hq => by rw [children_tag] at hp hq; exact h.unique p q c hp hq
  nodup := fun p => by rw [children_tag]; exact h.nodup p
  parent_iff := fun c p => by rw [children_tag, parent_tag]; exact h.parent_iff c p
  has_parent := fun c hc => by
    rw [size_tag] at hc
    obtain ⟨p, hp⟩ := h.has_parent c hc
    exact ⟨p, by rwa [children_tag]⟩

lemma kind_tags {t : Tree} (tags : List NodeId) (id : NodeId) :
    (tags.foldl Tree.tag t).kind id = t.kind id := by
  induction tags generalizing t with
  | nil => rfl
  | cons tagged rest ih => exact ih.trans (t.kind_tag tagged id)

lemma size_tags {t : Tree} (tags : List NodeId) : (tags.foldl Tree.tag t).size = t.size := by
  induction tags generalizing t with
  | nil => rfl
  | cons tagged rest ih => exact ih.trans (t.size_tag tagged)

lemma WellFormed.tags {t : Tree} (h : t.WellFormed) (tags : List NodeId) :
    (tags.foldl Tree.tag t).WellFormed := by
  induction tags generalizing t with
  | nil => exact h
  | cons tagged rest ih => exact ih (h.tag tagged)

end Tag

end ScriptDebugger.Tree
