import Mathlib.Algebra.GroupWithZero.Nat
import ScriptDebugger.Debugger.Breakpoint
import ScriptDebugger.Proofs.Syntax.Ancestor
import ScriptDebugger.Proofs.Syntax.Shape

/-!
# Walking a tree

The two walks keep their work on a stack. In a tree in which children come
before their parents they list what `preOrderFrom` and `postOrderFrom` list by
recursion, and run out of nodes before they run out of fuel. A parser allocates
in the order of the second walk, so that one lists the numbers as they are.
Climbing from a node ends at a statement unless it starts at the program.
-/

namespace ScriptDebugger

section Lists

variable {α β : Type}

lemma sublist_flatMap_of_mem {f : α → List β} {a : α} {as : List α} (h : a ∈ as) :
    (f a).Sublist (as.flatMap f) :=
  List.sublist_flatten_of_mem (List.mem_map_of_mem h)

lemma sublist_flatMap_self {f : α → List α} {as : List α} (h : ∀ a ∈ as, a ∈ f a) :
    as.Sublist (as.flatMap f) := by
  induction as with
  | nil => exact List.Sublist.slnil
  | cons a as ih =>
    have first : [a].Sublist (f a) := List.singleton_sublist.mpr (h a (by simp))
    exact first.append (ih fun b hb => h b (by simp [hb]))

end Lists

namespace Tree

/-- A node before its children, down to depth `fuel`. -/
def preOrderFrom (t : Tree) : (fuel : Nat) → NodeId → List NodeId
  | 0, _ => []
  | fuel + 1, id => id :: (t.children id).flatMap (t.preOrderFrom fuel)

lemma perm_preOrderFrom (t : Tree) (fuel id : Nat) :
    (t.preOrderFrom fuel id).Perm (t.postOrderFrom fuel id) := by
  induction fuel generalizing id with
  | zero => exact .nil
  | succ fuel ih =>
    have below : ((t.children id).flatMap (t.preOrderFrom fuel)).Perm
        ((t.children id).flatMap (t.postOrderFrom fuel)) :=
      List.Perm.flatMap_left _ fun c _ => ih c
    exact (below.cons id).trans (List.perm_append_singleton id _).symm

lemma postOrderFrom_congr {t t' : Tree} (children : ∀ id, t.children id = t'.children id)
    (fuel id : Nat) : t.postOrderFrom fuel id = t'.postOrderFrom fuel id := by
  induction fuel generalizing id with
  | zero => rfl
  | succ fuel ih =>
    rw [postOrderFrom, postOrderFrom, children id, funext ih]

/-- What the second walk visits for an entry of its stack. -/
def visits (t : Tree) (depth : Nat) : NodeId × Bool → List NodeId
  | (id, true) => [id]
  | (id, false) => t.postOrderFrom depth id

/-- How many times the second walk takes something off its stack for an entry. -/
def takes (t : Tree) (depth : Nat) : NodeId × Bool → Nat
  | (_, true) => 1
  | (id, false) => 2 * (t.postOrderFrom depth id).length

lemma flatMap_visits (t : Tree) (depth : Nat) (cs : List NodeId) :
    (cs.map (·, false)).flatMap (t.visits depth) = cs.flatMap (t.postOrderFrom depth) := by
  rw [List.flatMap_map]
  rfl

lemma sum_takes (t : Tree) (depth : Nat) (cs : List NodeId) :
    ((cs.map (·, false)).map (t.takes depth)).sum =
      2 * (cs.flatMap (t.postOrderFrom depth)).length := by
  induction cs with
  | nil => rfl
  | cons c cs ih =>
    simp only [List.map_cons, List.sum_cons, List.flatMap_cons, List.length_append, ih, takes]
    omega

namespace WellFormed

variable {t : Tree} (h : t.WellFormed)
include h

lemma preOrderFrom_succ {fuel id : Nat} (hid : id < fuel) :
    t.preOrderFrom (fuel + 1) id = t.preOrderFrom fuel id := by
  induction fuel generalizing id with
  | zero => omega
  | succ fuel ih =>
    have below : ∀ c ∈ t.children id, t.preOrderFrom (fuel + 1) c = t.preOrderFrom fuel c := by
      intro c hc
      have := h.child_lt id c hc
      exact ih (by omega)
    rw [preOrderFrom, List.flatMap_congr below, preOrderFrom]

lemma preOrderFrom_eq {fuel id : Nat} (hid : id < fuel) :
    t.preOrderFrom fuel id = id :: (t.children id).flatMap (t.preOrderFrom fuel) := by
  rw [← h.preOrderFrom_succ hid, preOrderFrom]

lemma postOrderFrom_succ {fuel id : Nat} (hid : id < fuel) :
    t.postOrderFrom (fuel + 1) id = t.postOrderFrom fuel id := by
  induction fuel generalizing id with
  | zero => omega
  | succ fuel ih =>
    have below : ∀ c ∈ t.children id, t.postOrderFrom (fuel + 1) c = t.postOrderFrom fuel c := by
      intro c hc
      have := h.child_lt id c hc
      exact ih (by omega)
    rw [postOrderFrom, List.flatMap_congr below, postOrderFrom]

lemma postOrderFrom_eq {fuel id : Nat} (hid : id < fuel) :
    t.postOrderFrom fuel id = (t.children id).flatMap (t.postOrderFrom fuel) ++ [id] := by
  rw [← h.postOrderFrom_succ hid, postOrderFrom]

lemma self_mem_preOrderFrom {fuel id : Nat} (hid : id < fuel) : id ∈ t.preOrderFrom fuel id := by
  rw [h.preOrderFrom_eq hid]
  exact List.mem_cons_self

lemma self_mem_postOrderFrom {fuel id : Nat} (hid : id < fuel) :
    id ∈ t.postOrderFrom fuel id := by
  rw [h.postOrderFrom_eq hid]
  simp

/-- With fuel for each node on and below the stack, the first walk lists them all. -/
lemma preOrderLoop_eq (depth fuel : Nat) (stack : List NodeId) (hlt : ∀ id ∈ stack, id < depth)
    (enough : (stack.flatMap (t.preOrderFrom depth)).length ≤ fuel) :
    t.preOrderLoop fuel stack = stack.flatMap (t.preOrderFrom depth) := by
  induction fuel generalizing stack with
  | zero =>
    rw [List.eq_nil_of_length_eq_zero (Nat.le_zero.mp enough), preOrderLoop]
  | succ fuel ih =>
    cases stack with
    | nil => rfl
    | cons id stack =>
      have hid : id < depth := hlt id (by simp)
      have listed : (id :: stack).flatMap (t.preOrderFrom depth) =
          id :: (t.children id ++ stack).flatMap (t.preOrderFrom depth) := by
        rw [List.flatMap_cons, h.preOrderFrom_eq hid, List.flatMap_append, List.cons_append]
      rw [listed] at enough ⊢
      rw [preOrderLoop, ih]
      · intro c hc
        rcases List.mem_append.mp hc with hc | hc
        · exact Nat.lt_trans (h.child_lt id c hc) hid
        · exact hlt c (by simp [hc])
      · simpa using enough

/-- With fuel for every time that something comes off the stack, the second walk visits what is on
and below it. -/
lemma postOrderLoop_eq (depth fuel : Nat) (stack : List (NodeId × Bool))
    (hlt : ∀ e ∈ stack, e.1 < depth) (enough : (stack.map (t.takes depth)).sum ≤ fuel) :
    t.postOrderLoop fuel stack = stack.flatMap (t.visits depth) := by
  induction fuel generalizing stack with
  | zero =>
    cases stack with
    | nil => rfl
    | cons e stack =>
      obtain ⟨id, marked⟩ := e
      have hid : id < depth := hlt (id, marked) (by simp)
      have := List.length_pos_of_mem (h.self_mem_postOrderFrom hid)
      cases marked <;> simp only [List.map_cons, List.sum_cons, takes] at enough <;> omega
  | succ fuel ih =>
    match stack with
    | [] => rfl
    | (id, true) :: stack =>
      have rest : (stack.map (t.takes depth)).sum ≤ fuel := by
        simp only [List.map_cons, List.sum_cons, takes] at enough
        omega
      rw [postOrderLoop, ih _ (fun e he => hlt e (by simp [he])) rest]
      rfl
    | (id, false) :: stack =>
      have hid : id < depth := hlt (id, false) (by simp)
      have walked := h.postOrderFrom_eq hid
      rw [postOrderLoop, ih]
      · simp only [List.flatMap_append, List.flatMap_cons, flatMap_visits, visits, walked,
          List.append_assoc]
      · intro e he
        rcases List.mem_append.mp he with he | he
        · obtain ⟨c, hc, rfl⟩ := List.mem_map.mp he
          exact Nat.lt_trans (h.child_lt id c hc) hid
        · rcases List.mem_cons.mp he with rfl | he
          · exact hid
          · exact hlt e (by simp [he])
      · have count := congrArg List.length walked
        rw [List.length_append, List.length_singleton] at count
        simp only [List.map_cons, List.sum_cons, takes] at enough
        simp only [List.map_append, List.sum_append, sum_takes, List.map_cons, List.sum_cons, takes]
        omega

lemma pair_sublist_preOrderFrom {fuel id p c : Nat} (hid : id < fuel)
    (hp : p ∈ t.preOrderFrom fuel id) (hc : c ∈ t.children p) :
    [p, c].Sublist (t.preOrderFrom fuel id) := by
  induction id using Nat.strongRecOn with
  | ind id ih =>
    rw [h.preOrderFrom_eq hid] at hp ⊢
    rcases List.mem_cons.mp hp with rfl | hp
    · have hlt := h.child_lt p c hc
      have below : c ∈ (t.children p).flatMap (t.preOrderFrom fuel) :=
        List.mem_flatMap.mpr ⟨c, hc, h.self_mem_preOrderFrom (by omega)⟩
      exact (List.singleton_sublist.mpr below).cons_cons p
    · obtain ⟨d, hd, hp⟩ := List.mem_flatMap.mp hp
      have hlt := h.child_lt id d hd
      have inner := ih d hlt (by omega) hp
      exact (inner.trans (sublist_flatMap_of_mem hd)).cons id

lemma children_sublist_postOrderFrom {fuel id p : Nat} (hid : id < fuel)
    (hp : p ∈ t.postOrderFrom fuel id) :
    (t.children p ++ [p]).Sublist (t.postOrderFrom fuel id) := by
  induction id using Nat.strongRecOn with
  | ind id ih =>
    rw [h.postOrderFrom_eq hid] at hp ⊢
    rcases List.mem_append.mp hp with hp | hp
    · obtain ⟨d, hd, hp⟩ := List.mem_flatMap.mp hp
      have hlt := h.child_lt id d hd
      have inner := ih d hlt (by omega) hp
      exact (inner.trans (sublist_flatMap_of_mem hd)).trans (List.sublist_append_left _ _)
    · obtain rfl := List.mem_singleton.mp hp
      refine List.Sublist.append_right (sublist_flatMap_self fun c hc => ?_) [p]
      have hlt := h.child_lt p c hc
      exact h.self_mem_postOrderFrom (by omega)

end WellFormed

/-- In the tree of a text that parses the children of all nodes together are all nodes but the
last. -/
lemma children_perm_of_parse {text : String} {options : ParseOptions} {t : Tree}
    (h : Tree.parse text options = .ok t) :
    ((List.range t.size).flatMap t.children).Perm (List.range (t.size - 1)) := by
  obtain ⟨t₀, n, size, rfl, grown⟩ := grown_of_parse h
  have perm := (grown.arena .empty).perm
  have nodes : List.range t₀.nodes.size = List.range n ++ [n] :=
    (congrArg List.range size).trans List.range_succ
  have children : (t₀.link n).children = t₀.children := funext (children_link t₀ n)
  rw [flatMap_children, List.nil_append, nodes] at perm
  rw [size_link, children, size, Nat.add_sub_cancel, ← size]
  exact (List.perm_append_right_iff [n]).mp perm

/-- The second walk from the root of a text that parses lists all numbers in order. -/
lemma postOrderFrom_of_parse {text : String} {options : ParseOptions} {t : Tree}
    (h : Tree.parse text options = .ok t) :
    t.postOrderFrom t.size (t.size - 1) = List.range t.size := by
  obtain ⟨t₀, n, size, rfl, grown⟩ := grown_of_parse h
  have walked := grown.postOrder List.prefix_rfl (Nat.le_refl t₀.size)
  rw [List.flatMap_singleton, Array.size_empty, Nat.sub_zero, ← List.range_eq_range'] at walked
  rw [size_link, postOrderFrom_congr (children_link t₀ n), size, Nat.add_sub_cancel, ← size, walked,
    Tree.size]

/-- Climbing from a node comes to an end: at the first node in statement position, or past a node
without a parent. -/
inductive Climbs (t : Tree) : NodeId → Option NodeId → Prop
  | here {id : NodeId} (statement : t.isStatement id = true) : Climbs t id (some id)
  | top {id : NodeId} (statement : t.isStatement id = false) (parent : t.parent id = none) :
      Climbs t id none
  | up {id p : NodeId} {s : Option NodeId} (statement : t.isStatement id = false)
      (parent : t.parent id = some p) (rest : Climbs t p s) : Climbs t id s

namespace WellFormed

variable {t : Tree} (h : t.WellFormed)
include h

lemma climbs_statementOf (id : Nat) : t.Climbs id (t.statementOf id) := by
  induction hk : t.size - id using Nat.strongRecOn generalizing id with
  | ind k ih =>
    rw [h.statementOf_eq]
    cases hs : t.isStatement id with
    | true => exact .here hs
    | false =>
      cases hp : t.parent id with
      | none => exact .top hs hp
      | some p =>
        have hlt := h.lt_parent hp
        exact .up hs hp (ih (t.size - p) (by omega) p rfl)

lemma isProgram_iff (id : Nat) :
    (t.kind id).isProgram = true ↔ id + 1 = t.size := by
  constructor
  · intro hprogram
    cases hk : t.kind id with
    | program body => exact h.only_program id body hk
    | _ => rw [hk] at hprogram; cases hprogram
  · intro hlast
    obtain ⟨body, hbody⟩ := h.program
    have last : id = t.size - 1 := by omega
    rw [last, hbody]
    rfl

/-- A statement of the program is in statement position. -/
lemma isStatement_of_mem_program {c p : Nat} (hc : c ∈ t.children p)
    (hp : (t.kind p).isProgram = true) : t.isStatement c = true := by
  cases hk : t.kind p with
  | program body =>
    have shape := h.shape p
    have listed : t.children p = body := by rw [Tree.children, hk]; rfl
    rw [hk, listed] at shape
    rw [listed] at hc
    have admitted := forall₂_replicate.mp shape c hc
    refine h.isStatement_child (listed ▸ hc) admitted fun init test update body hfor => ?_
    rw [hk] at hfor
    cases hfor
  | _ => rw [hk] at hp; cases hp

lemma statementOf_eq_none_iff {id : Nat} (hid : id < t.size) :
    t.statementOf id = none ↔ (t.kind id).isProgram = true := by
  constructor
  · induction hk : t.size - id using Nat.strongRecOn generalizing id with
    | ind k ih =>
      intro hnone
      by_contra hprogram
      have inner : id + 1 ≠ t.size := fun hlast => hprogram ((h.isProgram_iff id).mpr hlast)
      obtain ⟨p, hp⟩ := h.has_parent id (by omega)
      have hlt := h.lt_parent ((h.parent_iff id p).mpr hp)
      rw [h.statementOf_eq, (h.parent_iff id p).mpr hp] at hnone
      split at hnone
      · cases hnone
      · rename_i hs
        have above := ih (t.size - p) (by omega) hlt.2 rfl hnone
        exact hs (h.isStatement_of_mem_program hp above)
  · intro hprogram
    have last := (h.isProgram_iff id).mp hprogram
    have none := h.parent_of_size_le (by omega : t.size ≤ id + 1)
    have other : t.isStatement id = false := by
      cases hk : t.kind id with
      | program body => rw [isStatement, hk]; rfl
      | _ => rw [hk] at hprogram; cases hprogram
    rw [h.statementOf_eq, other, none]
    rfl

end WellFormed

/-- An array of nodes that is a tree: each node but the root, which is the last, is a child
once. -/
structure Rooted (t : Tree) : Prop where
  root : ∃ n, t.size = n + 1 ∧ t.root = some n
  parent_eq_none_iff : ∀ id < t.size, t.parent id = none ↔ t.root = some id
  children_perm : ((List.range t.size).flatMap t.children).Perm (List.range (t.size - 1))
  parent_eq_some_iff : ∀ c p, t.parent c = some p ↔ c ∈ t.children p
  child_lt : ∀ p c : Nat, c ∈ t.children p → c < p

/-- What the walks down from the root and the climb from a node come to. More fuel does not show
the walks more nodes, so it is the stack that ends them. -/
structure Walked (t : Tree) : Prop where
  preOrder_ends : ∀ root, t.root = some root → ∀ fuel, t.size ≤ fuel →
    t.preOrderLoop fuel [root] = t.preOrder
  preOrder_perm : t.preOrder.Perm (List.range t.size)
  parent_before : ∀ p c, c ∈ t.children p → [p, c].Sublist t.preOrder
  postOrder_ends : ∀ root, t.root = some root → ∀ fuel, 2 * t.size ≤ fuel →
    t.postOrderLoop fuel [(root, false)] = t.postOrder
  postOrder_eq : t.postOrder = List.range t.size
  children_before : ∀ p < t.size, (t.children p ++ [p]).Sublist t.postOrder
  childrenMap_eq : t.childrenMap =
    ((List.range t.size).filter fun id => t.children id ≠ []).map fun id => (id, t.children id)
  climbs : ∀ id, t.Climbs id (t.statementOf id)
  statementOf_eq_none_iff : ∀ id < t.size,
    t.statementOf id = none ↔ (t.kind id).isProgram = true

section Program

variable {t : Tree}

lemma WellFormed.rooted (h : t.WellFormed)
    (perm : ((List.range t.size).flatMap t.children).Perm (List.range (t.size - 1))) :
    t.Rooted where
  root := h.root
  parent_eq_none_iff := by
    intro id hid
    obtain ⟨n, hn, hroot⟩ := h.root
    rw [hroot]
    constructor
    · intro hnone
      by_contra hne
      have inner : id ≠ n := fun heq => hne (congrArg some heq.symm)
      obtain ⟨p, hp⟩ := h.has_parent id (by omega)
      rw [(h.parent_iff id p).mpr hp] at hnone
      cases hnone
    · rintro ⟨⟩
      exact h.parent_of_size_le (by omega)
  children_perm := perm
  parent_eq_some_iff := h.parent_iff
  child_lt := h.child_lt

/-- With fuel for every node the first walk visits what recursion does. -/
lemma WellFormed.preOrderLoop_root (h : t.WellFormed) {n fuel : Nat} (hlast : n < t.size)
    (perm : (t.preOrderFrom t.size n).Perm (List.range t.size)) (hfuel : t.size ≤ fuel) :
    t.preOrderLoop fuel [n] = t.preOrderFrom t.size n := by
  have walked := h.preOrderLoop_eq t.size fuel [n] (by simpa) (by simpa [perm.length_eq])
  rwa [List.flatMap_singleton] at walked

/-- Where recursion visits all numbers in order, so does the second walk, and the first visits
them in another order. -/
lemma WellFormed.walked (h : t.WellFormed)
    (all : t.postOrderFrom t.size (t.size - 1) = List.range t.size) : t.Walked := by
  obtain ⟨n, hn, hroot⟩ := h.root
  have hlast : n < t.size := by omega
  rw [show t.size - 1 = n by omega] at all
  have perm : (t.preOrderFrom t.size n).Perm (List.range t.size) := by
    rw [← all]
    exact perm_preOrderFrom t t.size n
  have preLoop : ∀ fuel, t.size ≤ fuel → t.preOrderLoop fuel [n] = t.preOrderFrom t.size n :=
    fun fuel hfuel => h.preOrderLoop_root hlast perm hfuel
  have postLoop : ∀ fuel, 2 * t.size ≤ fuel →
      t.postOrderLoop fuel [(n, false)] = List.range t.size := by
    intro fuel hfuel
    have walked := h.postOrderLoop_eq t.size fuel [(n, false)] (by simpa)
      (by simpa [takes, all])
    rwa [List.flatMap_singleton, visits, all] at walked
  have pre : t.preOrder = t.preOrderFrom t.size n := by
    rw [preOrder, hroot]
    exact preLoop t.size (Nat.le_refl _)
  have post : t.postOrder = List.range t.size := by
    rw [postOrder, hroot]
    exact postLoop (2 * t.size) (Nat.le_refl _)
  exact {
    preOrder_ends := by
      intro root hr fuel hfuel
      cases hroot.symm.trans hr
      rw [pre, preLoop fuel hfuel]
    preOrder_perm := pre ▸ perm
    parent_before := by
      intro p c hc
      have hp : p ∈ t.preOrderFrom t.size n :=
        perm.symm.subset (List.mem_range.mpr (lt_size_of_mem_children hc))
      rw [pre]
      exact h.pair_sublist_preOrderFrom hlast hp hc
    postOrder_ends := by
      intro root hr fuel hfuel
      cases hroot.symm.trans hr
      rw [post, postLoop fuel hfuel]
    postOrder_eq := post
    children_before := by
      intro p hp
      rw [post, ← all]
      exact h.children_sublist_postOrderFrom hlast (all ▸ List.mem_range.mpr hp)
    childrenMap_eq := by
      rw [childrenMap, ← List.filterMap_eq_map, List.filterMap_filter]
      refine List.filterMap_congr fun id hid => ?_
      have reached : t.preOrder.contains id = true := by
        rw [pre, List.contains_iff_mem]
        exact perm.symm.subset hid
      simp only [reached, Bool.true_and, Bool.not_eq_true', List.isEmpty_eq_false_iff, ne_eq,
        decide_eq_true_eq, Function.comp_apply]
    climbs := h.climbs_statementOf
    statementOf_eq_none_iff := fun id hid => h.statementOf_eq_none_iff hid }

end Program

/-- The first walk over a text that parses is the one by recursion from the program. -/
lemma preOrder_of_parse {text : String} {options : ParseOptions} {t : Tree}
    (h : Tree.parse text options = .ok t) : t.preOrder = t.preOrderFrom t.size (t.size - 1) := by
  have wellFormed := wellFormed_of_parse h
  obtain ⟨n, hn, root⟩ := wellFormed.root
  have last : t.size - 1 = n := by omega
  have perm := perm_preOrderFrom t t.size (t.size - 1)
  rw [postOrderFrom_of_parse h, last] at perm
  rw [last, preOrder, root]
  exact wellFormed.preOrderLoop_root (by omega) perm (Nat.le_refl _)

/-- The nodes of a text that parses are a tree, and the walks list each of them once. -/
theorem arranged_of_parse {text : String} {options : ParseOptions} {t : Tree}
    (h : Tree.parse text options = .ok t) : t.Rooted ∧ t.Walked := by
  have wellFormed := wellFormed_of_parse h
  constructor
  · exact wellFormed.rooted (children_perm_of_parse h)
  · exact wellFormed.walked (postOrderFrom_of_parse h)

theorem arranged_of_parse_call_in_if :
    ∃ t, Tree.parse "if (a) b(1, 2);" {} = .ok t ∧ t.Rooted ∧ t.Walked := by
  cases htree : Tree.parse "if (a) b(1, 2);" {} with
  | ok t => exact ⟨t, rfl, arranged_of_parse htree⟩
  | error e =>
    have parses : (Tree.parse "if (a) b(1, 2);" {}).toOption.isSome = true := by decide +kernel
    rw [htree] at parses
    cases parses

end Tree

end ScriptDebugger
