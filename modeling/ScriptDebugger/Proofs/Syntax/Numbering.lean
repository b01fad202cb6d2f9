import Mathlib.Data.List.Nodup
import Mathlib.Data.List.Perm.Basic
import ScriptDebugger.Proofs.Syntax.Kinds
import ScriptDebugger.Proofs.Syntax.Phrase

/-!
# Numbering

Numbering a phrase appends its nodes to an array. The nodes that are there stay
as they are, each node of the phrase gets its place (`Placed`), and in the array
as a whole every node is the child of at most one later node (`Arena`). A node
that is appended takes those that no node has taken yet, and leaves only itself
to be taken (`Grown.push`).
-/

namespace ScriptDebugger

namespace Phrase

variable {locate : Span → Option SourceLocation}

/-- Induction from the sub-phrases of a phrase to the phrase. -/
theorem induct {motive : Phrase → Prop} (h : ∀ p : Phrase, (∀ c ∈ p.children, motive c) → motive p)
    (p : Phrase) : motive p :=
  h p fun c _ => induct h c
  termination_by sizeOf p
  decreasing_by exact sizeOf_lt_of_mem (by assumption)

/-- `q` is `p` or stands somewhere inside it. -/
inductive Within : Phrase → Phrase → Prop
  | self {p : Phrase} : Within p p
  | child {q c p : Phrase} : Within q c → c ∈ p.children → Within q p

/-- Appends the nodes of phrases one after another; gives the array and the numbers of the
phrases' own nodes. -/
def numberAll (locate : Span → Option SourceLocation) (nodes : Array Node) :
    List Phrase → Array Node × List NodeId
  | [] => (nodes, [])
  | c :: cs =>
    let ns := c.number locate nodes
    ((numberAll locate ns cs).1, (ns.size - 1) :: (numberAll locate ns cs).2)

variable (locate) in
lemma foldl_number (cs : List Phrase) (nodes : Array Node) (ids : List NodeId) :
    cs.foldl (fun (acc : Array Node × List NodeId) c =>
        let ns := number locate acc.1 c
        (ns, (ns.size - 1) :: acc.2)) (nodes, ids) =
      ((numberAll locate nodes cs).1, (numberAll locate nodes cs).2.reverse ++ ids) := by
  induction cs generalizing nodes ids with
  | nil => rfl
  | cons c cs ih => simp [numberAll, ih]

/-- The own node of a phrase comes after the nodes of its sub-phrases. -/
lemma number_eq (nodes : Array Node) (p : Phrase) :
    p.number locate nodes =
      (numberAll locate nodes p.children).1.push
        (.fresh (p.kind.fill (numberAll locate nodes p.children).2) p.span (locate p.span)) := by
  rw [number]
  have h := foldl_number locate p.children nodes []
  rw [← List.foldl_attach] at h
  simp only [h, List.append_nil, List.reverse_reverse]

lemma length_numberAll (nodes : Array Node) (cs : List Phrase) :
    (numberAll locate nodes cs).2.length = cs.length := by
  induction cs generalizing nodes with
  | nil => rfl
  | cons c cs ih => simp [numberAll, ih]

variable (locate) in
/-- The number of a phrase's own node. -/
lemma size_number (nodes : Array Node) (p : Phrase) :
    (p.number locate nodes).size = (numberAll locate nodes p.children).1.size + 1 := by
  rw [number_eq, Array.size_push]

lemma getElem?_of_extends {ns ns' : Array Node} (h : ns.toList <+: ns'.toList) {id : NodeId}
    {n : Node} (hn : ns[id]? = some n) : ns'[id]? = some n := by
  obtain ⟨rest, hrest⟩ := h
  rw [← Array.getElem?_toList] at hn ⊢
  rw [← hrest, List.getElem?_append_left (List.getElem?_eq_some_iff.mp hn).1, hn]

/-- An array whose nodes are each the child of one later node, except for some that are no
children yet. -/
structure Arena (nodes : Array Node) (roots : List NodeId) : Prop where
  child_lt : ∀ {id : Nat} {n : Node}, nodes[id]? = some n → ∀ c : Nat, c ∈ n.kind.children → c < id
  perm : (nodes.toList.flatMap (·.kind.children) ++ roots).Perm (List.range nodes.size)
  fresh : ∀ {id : NodeId} {n : Node}, nodes[id]? = some n → n.parent = none ∧ n.tagged = false

lemma Arena.empty : Arena #[] [] where
  child_lt := fun h => by simp at h
  perm := .nil
  fresh := fun h => by simp at h

/-- A new node takes the last of the nodes that are no children yet. -/
lemma Arena.push {nodes : Array Node} {roots ids : List NodeId} (h : Arena nodes (roots ++ ids))
    {n : Node} (children : n.kind.children = ids) (fresh : n.parent = none ∧ n.tagged = false) :
    Arena (nodes.push n) (roots ++ [nodes.size]) where
  child_lt := by
    intro id m hm c hc
    rw [Array.getElem?_push] at hm
    split at hm
    · cases hm
      rw [children] at hc
      have : c ∈ List.range nodes.size := h.perm.subset (by simp [hc])
      have := List.mem_range.mp this
      omega
    · exact h.child_lt hm c hc
  perm := by
    have h := h.perm.append_right [nodes.size]
    rw [Array.toList_push, Array.size_push, List.range_succ, List.flatMap_append,
      List.flatMap_singleton, children]
    refine List.Perm.trans ?_ h
    simp only [List.append_assoc]
    refine List.Perm.append_left _ ?_
    rw [← List.append_assoc, ← List.append_assoc]
    exact List.Perm.append_right _ List.perm_append_comm
  fresh := by
    intro id m hm
    rw [Array.getElem?_push] at hm
    split at hm
    · cases hm
      exact fresh
    · exact h.fresh hm

end Phrase

/-- A node after its children, down to depth `fuel`. -/
def Tree.postOrderFrom (t : Tree) : (fuel : Nat) → NodeId → List NodeId
  | 0, _ => []
  | fuel + 1, id => (t.children id).flatMap (t.postOrderFrom fuel) ++ [id]

namespace Phrase

variable {locate : Span → Option SourceLocation}

/-- From `nodes` to `nodes'` an array has grown by nodes of which only `ids` are no children yet:
what was there stays, and the walk down from `ids`, each node after its children, visits the new
nodes by number. -/
structure Grown (nodes nodes' : Array Node) (ids : List NodeId) : Prop where
  stays : nodes.toList <+: nodes'.toList
  arena : ∀ {roots : List NodeId}, Arena nodes roots → Arena nodes' (roots ++ ids)
  postOrder : ∀ {t : Tree}, nodes'.toList <+: t.nodes.toList → ∀ {fuel : Nat},
    nodes'.size ≤ fuel →
      ids.flatMap (t.postOrderFrom fuel) = List.range' nodes.size (nodes'.size - nodes.size)

namespace Grown

variable {nodes nodes' nodes'' : Array Node} {ids ids' : List NodeId}

lemma size_le (h : Grown nodes nodes' ids) : nodes.size ≤ nodes'.size := by
  simpa using h.stays.length_le

lemma refl (nodes : Array Node) : Grown nodes nodes [] where
  stays := List.prefix_rfl
  arena := fun h => by rwa [List.append_nil]
  postOrder := fun _ => by simp

lemma trans (h : Grown nodes nodes' ids) (h' : Grown nodes' nodes'' ids') :
    Grown nodes nodes'' (ids ++ ids') where
  stays := h.stays.trans h'.stays
  arena := fun ha => by
    rw [← List.append_assoc]
    exact h'.arena (h.arena ha)
  postOrder := by
    intro t there fuel enough
    have later := h'.size_le
    have first := h.postOrder (h'.stays.trans there) (Nat.le_trans later enough)
    have length : nodes''.size - nodes.size =
        nodes'.size - nodes.size + (nodes''.size - nodes'.size) := by
      have := h.size_le
      omega
    have start : nodes.size + (nodes'.size - nodes.size) = nodes'.size :=
      Nat.add_sub_cancel' h.size_le
    rw [List.flatMap_append, first, h'.postOrder there enough, length, ← List.range'_append_1,
      start]

/-- A new node takes the nodes that are no children yet. -/
theorem push (h : Grown nodes nodes' ids) {n : Node} (children : n.kind.children = ids)
    (fresh : n.parent = none ∧ n.tagged = false) :
    Grown nodes (nodes'.push n) [nodes'.size] where
  stays := by
    rw [Array.toList_push]
    exact h.stays.trans (List.prefix_append _ _)
  arena := fun ha => (h.arena ha).push children fresh
  postOrder := by
    intro t there fuel enough
    have before : nodes'.toList <+: t.nodes.toList := by
      refine List.IsPrefix.trans ?_ there
      rw [Array.toList_push]
      exact List.prefix_append _ _
    have own : t.nodes[nodes'.size]? = some n :=
      getElem?_of_extends there Array.getElem?_push_size
    have below : t.children nodes'.size = ids := by
      simp only [Tree.children, Tree.kind, own, children]
    have length : nodes'.size + 1 - nodes.size = nodes'.size - nodes.size + 1 :=
      Nat.succ_sub h.size_le
    have last : nodes.size + (nodes'.size - nodes.size) = nodes'.size :=
      Nat.add_sub_cancel' h.size_le
    rw [Array.size_push] at enough ⊢
    cases fuel with
    | zero => omega
    | succ fuel =>
      rw [List.flatMap_singleton, Tree.postOrderFrom, below,
        h.postOrder before (Nat.le_of_succ_le_succ enough), length, List.range'_1_concat, last]

end Grown

lemma grown_numberAll {cs : List Phrase}
    (h : ∀ c ∈ cs, ∀ nodes : Array Node,
      Grown nodes (c.number locate nodes) [(c.number locate nodes).size - 1])
    (nodes : Array Node) :
    Grown nodes (numberAll locate nodes cs).1 (numberAll locate nodes cs).2 := by
  induction cs generalizing nodes with
  | nil => exact .refl nodes
  | cons c cs ih =>
    exact (h c (by simp) nodes).trans
      (ih (fun d hd => h d (by simp [hd])) (c.number locate nodes))

theorem grown_number (p : Phrase) (nodes : Array Node) :
    Grown nodes (p.number locate nodes) [(p.number locate nodes).size - 1] := by
  induction p using induct generalizing nodes with
  | h p ih =>
    rw [size_number, number_eq]
    exact (grown_numberAll ih nodes).push
      (NodeKind.children_fill (length_numberAll nodes p.children)) ⟨rfl, rfl⟩

lemma number_extends (p : Phrase) (nodes : Array Node) :
    nodes.toList <+: (p.number locate nodes).toList := (grown_number p nodes).stays

lemma numberAll_extends (cs : List Phrase) (nodes : Array Node) :
    nodes.toList <+: (numberAll locate nodes cs).1.toList :=
  (grown_numberAll (fun c _ => grown_number c) nodes).stays

/-- The node `id` of an array is that of a phrase, and its children are those of the
sub-phrases. -/
inductive Placed (nodes : Array Node) : Phrase → NodeId → Prop
  | mk {p : Phrase} {id : NodeId} {node : Node} {ids : List NodeId} (get : nodes[id]? = some node)
      (kind : node.kind = p.kind.fill ids) (span : node.span = p.span)
      (children : List.Forall₂ (Placed nodes) p.children ids) : Placed nodes p id

lemma Placed.mono {ns ns' : Array Node} (h : ns.toList <+: ns'.toList) {p : Phrase} {id : NodeId}
    (hp : Placed ns p id) : Placed ns' p id := by
  induction p using induct generalizing id with
  | h p ih =>
    obtain ⟨get, kind, span, children⟩ := hp
    exact .mk (getElem?_of_extends h get) kind span
      (forall₂_imp_mem children fun c hc _ _ hb => ih c hc hb)

lemma placed_numberAll {cs : List Phrase}
    (h : ∀ c ∈ cs, ∀ nodes : Array Node,
      Placed (c.number locate nodes) c ((c.number locate nodes).size - 1))
    (nodes : Array Node) :
    List.Forall₂ (Placed (numberAll locate nodes cs).1) cs (numberAll locate nodes cs).2 := by
  induction cs generalizing nodes with
  | nil => exact .nil
  | cons c cs ih =>
    have later : (c.number locate nodes).toList <+:
        (numberAll locate (c.number locate nodes) cs).1.toList :=
      numberAll_extends cs _
    exact .cons ((h c (by simp) nodes).mono later)
      (ih (fun d hd => h d (by simp [hd])) (c.number locate nodes))

variable (locate) in
/-- The node of a phrase is the last one that its numbering appends. -/
theorem placed_number (p : Phrase) (nodes : Array Node) :
    Placed (p.number locate nodes) p ((p.number locate nodes).size - 1) := by
  induction p using induct generalizing nodes with
  | h p ih =>
    rw [number_eq]
    have get : ((numberAll locate nodes p.children).1.push
        (.fresh (p.kind.fill (numberAll locate nodes p.children).2) p.span (locate p.span)))[
          (numberAll locate nodes p.children).1.size]? =
        some (.fresh (p.kind.fill (numberAll locate nodes p.children).2) p.span (locate p.span)) :=
      Array.getElem?_push_size
    rw [Array.size_push, Nat.add_sub_cancel]
    refine .mk get rfl rfl ?_
    refine forall₂_imp_mem (placed_numberAll ih nodes) fun c _ id _ hc => hc.mono ?_
    rw [Array.toList_push]
    exact List.prefix_append _ _

lemma covered_numberAll {cs : List Phrase}
    (h : ∀ c ∈ cs, ∀ (nodes : Array Node) (id : Nat), nodes.size ≤ id →
      id < (c.number locate nodes).size → ∃ q, Within q c ∧ Placed (c.number locate nodes) q id)
    (nodes : Array Node) {id : Nat} (low : nodes.size ≤ id)
    (high : id < (numberAll locate nodes cs).1.size) :
    ∃ c ∈ cs, ∃ q, Within q c ∧ Placed (numberAll locate nodes cs).1 q id := by
  induction cs generalizing nodes with
  | nil =>
    simp only [numberAll] at high
    omega
  | cons c cs ih =>
    by_cases hid : id < (c.number locate nodes).size
    · obtain ⟨q, hq, hplaced⟩ := h c (by simp) nodes id low hid
      have later : (c.number locate nodes).toList <+:
          (numberAll locate (c.number locate nodes) cs).1.toList :=
        numberAll_extends cs _
      exact ⟨c, by simp, q, hq, hplaced.mono later⟩
    · obtain ⟨d, hd, rest⟩ := ih (fun d hd => h d (by simp [hd])) (c.number locate nodes)
        (by omega) high
      exact ⟨d, by simp [hd], rest⟩

/-- Every node that the numbering of a phrase appends is that of a phrase within it. -/
theorem covered_number (p : Phrase) (nodes : Array Node) {id : Nat} (low : nodes.size ≤ id)
    (high : id < (p.number locate nodes).size) :
    ∃ q, Within q p ∧ Placed (p.number locate nodes) q id := by
  induction p using induct generalizing nodes id with
  | h p ih =>
    have size := size_number locate nodes p
    by_cases own : id = (p.number locate nodes).size - 1
    · exact ⟨p, .self, own ▸ placed_number locate p nodes⟩
    · obtain ⟨c, hc, q, hq, hplaced⟩ := covered_numberAll
        (fun c hc nodes id low high => ih c hc nodes low high) nodes low
        (by omega : id < (numberAll locate nodes p.children).1.size)
      refine ⟨q, .child hq hc, hplaced.mono ?_⟩
      rw [number_eq, Array.toList_push]
      exact List.prefix_append _ _

variable (locate) in
/-- Every node but the last is that of a phrase within a sub-phrase. -/
lemma covered_inner (p : Phrase) (nodes : Array Node) {id : Nat} (low : nodes.size ≤ id)
    (high : id + 1 < (p.number locate nodes).size) :
    ∃ c ∈ p.children, ∃ q, Within q c ∧ Placed (p.number locate nodes) q id := by
  have size := size_number locate nodes p
  obtain ⟨c, hc, q, hq, hplaced⟩ := covered_numberAll
    (fun c _ nodes id low high => covered_number c nodes low high) nodes low
    (by omega : id < (numberAll locate nodes p.children).1.size)
  refine ⟨c, hc, q, hq, hplaced.mono ?_⟩
  rw [number_eq, Array.toList_push]
  exact List.prefix_append _ _

end Phrase

end ScriptDebugger
