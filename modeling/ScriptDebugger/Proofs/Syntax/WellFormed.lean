import Mathlib.Data.List.Pairwise
import ScriptDebugger.Proofs.Syntax.Numbering

/-!
# Well-formed trees

The tree of a program is one: its root is its last node and the only program,
every other node is the child of exactly one node, which comes later and is
what its parent link says, and every child may stand in its place.
-/

namespace ScriptDebugger

namespace Tree

lemma getElem?_setParents (nodes : Array Node) (parent : NodeId) (cs : List NodeId) (i : Nat) :
    (setParents nodes parent cs)[i]? =
      nodes[i]?.map fun n => if i ∈ cs then { n with parent := some parent } else n := by
  induction cs generalizing nodes with
  | nil => simp [setParents]
  | cons c cs ih =>
    have rest := ih (nodes.modify c fun n => { n with parent := some parent })
    rw [setParents] at rest ⊢
    rw [List.foldl_cons, rest, Array.getElem?_modify]
    by_cases hc : c = i
    · subst hc
      simp [Option.map_map, Function.comp_def]
    · simp [hc, Ne.symm hc]

/-- The latest of the first `k` nodes that has `i` as a child. -/
def parentAmong? (t : Tree) (i : NodeId) (k : Nat) : Option NodeId :=
  (List.range k).reverse.find? fun p => decide (i ∈ t.children p)

lemma getElem?_foldl_setParents (t : Tree) (k i : Nat) :
    ((List.range k).foldl (fun ns id => setParents ns id (t.children id)) t.nodes)[i]? =
      t.nodes[i]?.map fun n => { n with parent := (t.parentAmong? i k).or n.parent } := by
  induction k with
  | zero => simp [parentAmong?]
  | succ k ih =>
    rw [List.range_succ, List.foldl_append, List.foldl_cons, List.foldl_nil,
      getElem?_setParents, ih, Option.map_map]
    have find : t.parentAmong? i (k + 1) =
        if i ∈ t.children k then some k else t.parentAmong? i k := by
      simp only [parentAmong?, List.range_succ, List.reverse_append, List.reverse_singleton,
        List.singleton_append, List.find?_cons]
      by_cases h : i ∈ t.children k <;> simp [h]
    congr 1
    funext n
    by_cases h : i ∈ t.children k <;> simp [find, h]

variable (t : Tree) (root : NodeId)

lemma getElem?_link (i : Nat) :
    (t.link root).nodes[i]? =
      t.nodes[i]?.map fun n => { n with parent := (t.parentAmong? i t.size).or n.parent } :=
  getElem?_foldl_setParents t t.size i

lemma kind_link (id : NodeId) : (t.link root).kind id = t.kind id := by
  simp only [kind, getElem?_link]
  cases t.nodes[id]? <;> rfl

lemma span_link (id : NodeId) : (t.link root).span id = t.span id := by
  simp only [span, getElem?_link, Option.map_map, Function.comp_def]

lemma size_link : (t.link root).size = t.size := by
  refine Nat.le_antisymm ?_ ?_
  · by_contra h
    have := getElem?_link t root t.size
    simp only [size] at h this ⊢
    rw [Array.getElem?_eq_none (Nat.le_refl _), Option.map_none,
      Array.getElem?_eq_none_iff] at this
    omega
  · by_contra h
    have := getElem?_link t root (t.link root).size
    simp only [size] at h this ⊢
    rw [Array.getElem?_eq_none (Nat.le_refl _), eq_comm, Option.map_eq_none_iff,
      Array.getElem?_eq_none_iff] at this
    omega

lemma children_link (id : NodeId) : (t.link root).children id = t.children id := by
  simp only [children, kind_link]

end Tree

namespace Phrase

/-- The sub-phrases of a phrase may stand in their places. -/
def FitsInside (p : Phrase) : Prop := List.Forall₂ Fits p.kind.roles p.children

lemma IsProgram.fitsInside {p : Phrase} (h : p.IsProgram) : p.FitsInside := by
  obtain ⟨body, hkind, hbody⟩ := h
  simp only [FitsInside, children, hkind]
  exact forall₂_replicate.mpr hbody

lemma Fits.fitsInside {r : NodeKind.Role} {p : Phrase} (h : p.Fits r) : p.FitsInside := by
  cases h with
  | mk admits children => exact children

/-- What stands inside a phrase that fits, fits in some role. -/
lemma Within.fits {q p : Phrase} (h : Within q p) {r : NodeKind.Role} (hp : p.Fits r) :
    ∃ r, q.Fits r := by
  induction h generalizing r with
  | self => exact ⟨r, hp⟩
  | child _ hc ih =>
    obtain ⟨r', hr'⟩ := exists_left_of_mem hp.fitsInside hc
    exact ih hr'

/-- A program fits in no role. -/
lemma Fits.kind_ne_program {r : NodeKind.Role} {p : Phrase} (h : p.Fits r) (body : List Phrase) :
    p.kind ≠ .program body := by
  intro hk
  cases h with
  | mk admits children =>
    rw [hk] at admits
    cases r <;> cases admits

end Phrase

/-- The trees of programs. -/
structure Tree.WellFormed (t : Tree) : Prop where
  root : ∃ n, t.size = n + 1 ∧ t.root = some n
  program : ∃ body, t.kind (t.size - 1) = .program body
  only_program : ∀ (id : Nat) (body : List NodeId), t.kind id = .program body → id + 1 = t.size
  shape : ∀ id, List.Forall₂ (fun r c => r.admits (t.kind c) = true) (t.kind id).roles
    (t.children id)
  child_lt : ∀ p c : Nat, c ∈ t.children p → c < p
  unique : ∀ p q c : Nat, c ∈ t.children p → c ∈ t.children q → p = q
  nodup : ∀ p, (t.children p).Nodup
  parent_iff : ∀ c p : Nat, t.parent c = some p ↔ c ∈ t.children p
  has_parent : ∀ c : Nat, c + 1 < t.size → ∃ p, c ∈ t.children p

namespace Tree

variable {locate : Span → Option SourceLocation} {sourceType : SourceType} {p : Phrase}

/-- An unlinked tree with the nodes of a phrase. -/
def numbered (locate : Span → Option SourceLocation) (sourceType : SourceType) (p : Phrase) :
    Tree :=
  { nodes := p.number locate #[], root := none, sourceType }

lemma kind_of_getElem? {t : Tree} {id : NodeId} {n : Node} (h : t.nodes[id]? = some n) :
    t.kind id = n.kind := by
  simp only [kind, h]

lemma kind_of_size_le {t : Tree} {id : Nat} (h : t.size ≤ id) : t.kind id = .emptyStatement := by
  simp only [kind, Array.getElem?_eq_none h]

lemma children_of_size_le {t : Tree} {id : Nat} (h : t.size ≤ id) : t.children id = [] := by
  simp only [children, kind_of_size_le h, NodeKind.children]

lemma lt_size_of_mem_children {t : Tree} {p c : Nat} (h : c ∈ t.children p) : p < t.size := by
  by_contra hp
  rw [children_of_size_le (by omega)] at h
  cases h

/-- The node of a placed phrase has its roles, and its children may stand in their places. -/
lemma shape_of_placed {t : Tree} {q : Phrase} {id : NodeId} (h : Phrase.Placed t.nodes q id)
    (hq : q.FitsInside) :
    List.Forall₂ (fun r c => NodeKind.Role.admits r (t.kind c) = true) (t.kind id).roles
      (t.children id) := by
  cases h with
  | mk get kind span children =>
    have count := children.length_eq.symm
    rw [Tree.children, kind_of_getElem? get, kind, NodeKind.roles_fill count,
      NodeKind.children_fill count]
    refine forall₂_comp (fun r c id hc hid => ?_) hq children
    cases hid with
    | mk get kind span children =>
      cases hc with
      | mk admits inside => rw [kind_of_getElem? get, kind, NodeKind.admits_fill, admits]

variable (locate sourceType) in
lemma size_numbered (p : Phrase) : ∃ n, (numbered locate sourceType p).size = n + 1 :=
  ⟨_, Phrase.size_number _ #[] p⟩

variable (locate sourceType) in
lemma arena_numbered (p : Phrase) :
    Phrase.Arena (numbered locate sourceType p).nodes
      [(numbered locate sourceType p).size - 1] :=
  (Phrase.grown_number p #[]).arena .empty

lemma fresh_numbered {id : Nat} {n : Node}
    (h : (numbered locate sourceType p).nodes[id]? = some n) :
    n.parent = none ∧ n.tagged = false :=
  (arena_numbered locate sourceType p).fresh h

lemma child_lt_numbered {q c : Nat} (h : c ∈ (numbered locate sourceType p).children q) :
    c < q := by
  cases hn : (numbered locate sourceType p).nodes[q]? with
  | none =>
    rw [children_of_size_le (Array.getElem?_eq_none_iff.mp hn)] at h
    cases h
  | some n =>
    rw [Tree.children, kind_of_getElem? hn] at h
    exact (arena_numbered locate sourceType p).child_lt hn c h

lemma flatMap_children (t : Tree) :
    t.nodes.toList.flatMap (·.kind.children) = (List.range t.size).flatMap t.children := by
  have list : t.nodes.toList = (List.range t.size).map fun i => t.nodes[i]?.getD default := by
    refine List.ext_getElem (by simp [size]) fun i hi _ => ?_
    have hi : i < t.nodes.size := by simpa using hi
    simp [hi]
  rw [list, List.flatMap_map]
  refine List.flatMap_congr fun i hi => ?_
  have hi : i < t.nodes.size := List.mem_range.mp hi
  simp only [children, kind, Array.getElem?_eq_getElem hi, Option.getD_some]

/-- The children of all nodes together are all nodes but the last. -/
lemma perm_numbered {n : Nat} (hn : (numbered locate sourceType p).size = n + 1) :
    ((List.range (n + 1)).flatMap (numbered locate sourceType p).children).Perm
      (List.range n) := by
  have h := (arena_numbered locate sourceType p).perm
  have hsize : (numbered locate sourceType p).nodes.size = n + 1 := hn
  rw [flatMap_children, hn, hsize, Nat.add_sub_cancel] at h
  conv at h => rhs; rw [List.range_succ]
  exact (List.perm_append_right_iff [n]).mp h

lemma nodup_numbered {n : Nat} (hn : (numbered locate sourceType p).size = n + 1) :
    ((List.range (n + 1)).flatMap (numbered locate sourceType p).children).Nodup :=
  (perm_numbered hn).nodup_iff.mpr List.nodup_range

lemma unique_numbered {a b c : Nat} (ha : c ∈ (numbered locate sourceType p).children a)
    (hb : c ∈ (numbered locate sourceType p).children b) : a = b := by
  obtain ⟨n, hn⟩ := size_numbered locate sourceType p
  have disjoint := (List.nodup_flatMap.mp (nodup_numbered hn)).2
  have ha' := lt_size_of_mem_children ha
  have hb' := lt_size_of_mem_children hb
  rw [hn] at ha' hb'
  have symm : Std.Symm (Function.onFun List.Disjoint (numbered locate sourceType p).children) :=
    ⟨fun _ _ h c hc hc' => h hc' hc⟩
  by_contra hne
  exact disjoint.forall (List.mem_range.mpr ha') (List.mem_range.mpr hb') hne ha hb

lemma parentAmong?_eq_some {t : Tree} (unique : ∀ a b c : Nat, c ∈ t.children a →
    c ∈ t.children b → a = b) (c q : Nat) :
    t.parentAmong? c t.size = some q ↔ c ∈ t.children q := by
  constructor
  · intro h
    simpa using List.find?_some h
  · intro h
    have hq := lt_size_of_mem_children h
    have found : (t.parentAmong? c t.size).isSome = true := by
      rw [parentAmong?, List.find?_isSome]
      exact ⟨q, by simp [hq], by simpa using h⟩
    obtain ⟨q', hq'⟩ := Option.isSome_iff_exists.mp found
    have h' : c ∈ t.children q' := by simpa using List.find?_some hq'
    rw [hq', unique q' q c h' h]

lemma placed_last {n : Nat} (hn : (numbered locate sourceType p).size = n + 1) :
    Phrase.Placed (numbered locate sourceType p).nodes p n := by
  have own := Phrase.placed_number locate p #[]
  have size : (p.number locate #[]).size = n + 1 := hn
  rwa [size, Nat.add_sub_cancel] at own

/-- Every node of a program but the last is that of a phrase that fits. -/
lemma placed_inner (hp : p.IsProgram) {n : Nat}
    (hn : (numbered locate sourceType p).size = n + 1) {id : Nat} (hid : id < n) :
    ∃ q r, Phrase.Fits r q ∧ Phrase.Placed (numbered locate sourceType p).nodes q id := by
  have size : (p.number locate #[]).size = n + 1 := hn
  obtain ⟨c, hc, q, hwithin, hplaced⟩ := Phrase.covered_inner locate p #[]
    (Nat.zero_le id) (by omega : id + 1 < _)
  obtain ⟨r, hr⟩ := exists_left_of_mem hp.fitsInside hc
  obtain ⟨r', hr'⟩ := hwithin.fits hr
  exact ⟨q, r', hr', hplaced⟩

lemma shape_numbered (hp : p.IsProgram) (id : Nat) :
    List.Forall₂ (fun r c => NodeKind.Role.admits r ((numbered locate sourceType p).kind c) = true)
      ((numbered locate sourceType p).kind id).roles
      ((numbered locate sourceType p).children id) := by
  obtain ⟨n, hn⟩ := size_numbered locate sourceType p
  rcases Nat.lt_trichotomy id n with hid | rfl | hid
  · obtain ⟨q, r, hq, hplaced⟩ := placed_inner hp hn hid
    exact shape_of_placed hplaced hq.fitsInside
  · exact shape_of_placed (placed_last hn) hp.fitsInside
  · rw [children_of_size_le (by omega), kind_of_size_le (by omega)]
    exact .nil

lemma kind_last (hp : p.IsProgram) {n : Nat}
    (hn : (numbered locate sourceType p).size = n + 1) :
    ∃ body, (numbered locate sourceType p).kind n = .program body := by
  obtain ⟨body, hkind, -⟩ := hp
  cases placed_last hn with
  | mk get kind span children =>
    rw [kind_of_getElem? get, kind, hkind]
    exact ⟨_, rfl⟩

lemma kind_inner (hp : p.IsProgram) {n : Nat}
    (hn : (numbered locate sourceType p).size = n + 1) {id : Nat} (hid : id < n)
    (body : List NodeId) : (numbered locate sourceType p).kind id ≠ .program body := by
  obtain ⟨q, r, hq, hplaced⟩ := placed_inner hp hn hid
  cases hplaced with
  | mk get kind span children =>
    rw [kind_of_getElem? get, kind]
    intro h
    cases hk : q.kind with
    | program body => exact hq.kind_ne_program body hk
    | _ => rw [hk] at h; cases h

/-- The tree of a program is well-formed. -/
theorem wellFormed_ofPhrase (table? : Option LineTable) (hp : p.IsProgram) :
    (ofPhrase table? sourceType p).WellFormed := by
  set t := numbered (fun s => table?.map (·.location s)) sourceType p with ht
  obtain ⟨n, hn⟩ : ∃ n, t.size = n + 1 := size_numbered _ sourceType p
  have unique : ∀ a b c : Nat, c ∈ t.children a → c ∈ t.children b → a = b :=
    fun a b c ha hb => unique_numbered ha hb
  have hlink : ofPhrase table? sourceType p = t.link n := by
    have last : t.nodes.size - 1 = n := by
      have : t.nodes.size = n + 1 := hn
      omega
    rw [← last]
    rfl
  rw [hlink]
  exact {
    root := ⟨n, by rw [size_link, hn], rfl⟩
    program := by
      rw [size_link, hn, kind_link]
      exact kind_last hp hn
    only_program := by
      intro id body hbody
      rw [kind_link] at hbody
      rw [size_link, hn]
      rcases Nat.lt_trichotomy id n with hid | rfl | hid
      · exact absurd hbody (kind_inner hp hn hid body)
      · rfl
      · rw [kind_of_size_le (by omega)] at hbody
        cases hbody
    shape := by
      intro id
      simp only [kind_link, children_link]
      exact shape_numbered hp id
    child_lt := by
      intro a c hc
      rw [children_link] at hc
      exact child_lt_numbered hc
    unique := by
      intro a b c ha hb
      rw [children_link] at ha hb
      exact unique a b c ha hb
    nodup := by
      intro a
      rw [children_link]
      by_cases ha : a < n + 1
      · exact (List.nodup_flatMap.mp (nodup_numbered hn)).1 a (List.mem_range.mpr ha)
      · rw [children_of_size_le (hn ▸ Nat.le_of_not_lt ha)]
        exact List.nodup_nil
    parent_iff := by
      intro c a
      rw [children_link, ← parentAmong?_eq_some unique c a, parent, getElem?_link]
      cases hc : t.nodes[c]? with
      | none =>
        constructor
        · intro h
          cases h
        · intro h
          have := child_lt_numbered ((parentAmong?_eq_some unique c a).mp h)
          have := lt_size_of_mem_children ((parentAmong?_eq_some unique c a).mp h)
          have := Array.getElem?_eq_none_iff.mp hc
          simp only [size] at *
          omega
      | some m =>
        simp [(fresh_numbered hc).1]
    has_parent := by
      intro c hc
      rw [size_link, hn] at hc
      have : c ∈ (List.range (n + 1)).flatMap t.children :=
        (perm_numbered hn).symm.subset (List.mem_range.mpr (by omega))
      obtain ⟨a, -, ha⟩ := List.mem_flatMap.mp this
      exact ⟨a, by rwa [children_link]⟩ }

/-- A new tree has no tags. -/
lemma untagged_ofPhrase (table? : Option LineTable) {id : Nat} {n : Node}
    (h : (ofPhrase table? sourceType p).nodes[id]? = some n) : n.tagged = false := by
  have linked : ofPhrase table? sourceType p =
      (numbered (fun s => table?.map (·.location s)) sourceType p).link
        ((p.number (fun s => table?.map (·.location s)) #[]).size - 1) := rfl
  rw [linked, getElem?_link, Option.map_eq_some_iff] at h
  obtain ⟨m, hm, rfl⟩ := h
  exact (fresh_numbered hm).2

end Tree

end ScriptDebugger
