import ScriptDebugger.Proofs.Source.Lines
import ScriptDebugger.Proofs.Syntax.Spans
import ScriptDebugger.Proofs.Syntax.Traversal

/-!
# Where nodes stand

A node lies within those that it is reached from, and in post-order it is within
a later one or stops before that one starts (`pairwise_postOrderFrom`). The
statement that holds a node is the innermost one around it. In a tree with
locations a node starts on the line on which its span starts (`startsOn_iff`),
and none starts after the last line.
-/

namespace ScriptDebugger

namespace Phrase

variable {locate : Span → Option SourceLocation} {nodes : Array Node}

/-- The nodes have the locations that `locate` gives their spans. -/
def Located (locate : Span → Option SourceLocation) (nodes : Array Node) : Prop :=
  ∀ n ∈ nodes, n.location = locate n.span

lemma located_numberAll {cs : List Phrase}
    (each : ∀ c ∈ cs, ∀ nodes : Array Node, Located locate nodes →
      Located locate (c.number locate nodes))
    (h : Located locate nodes) : Located locate (numberAll locate nodes cs).1 := by
  induction cs generalizing nodes with
  | nil => exact h
  | cons c cs ih => exact ih (fun d hd => each d (by simp [hd])) (each c (by simp) nodes h)

lemma located_number (p : Phrase) (h : Located locate nodes) :
    Located locate (p.number locate nodes) := by
  induction p using induct generalizing nodes with
  | h p ih =>
    have inner := located_numberAll (fun c hc nodes h => ih c hc h) h
    intro n hn
    rw [number_eq] at hn
    rcases Array.mem_push.mp hn with hn | rfl
    · exact inner n hn
    · rfl

end Phrase

namespace Tree

variable {t : Tree}

/-- The nodes of a program, numbered and linked, are where their spans say. -/
lemma location_ofPhrase {table : LineTable} {sourceType : SourceType} {p : Phrase} {id : NodeId}
    {n : Node} (hn : (ofPhrase (some table) sourceType p).node? id = some n) :
    n.location = some (table.location n.span) := by
  have located : Phrase.Located (fun s => some (table.location s))
      (p.number (fun s => some (table.location s)) #[]) :=
    Phrase.located_number p fun n hn => by simp at hn
  rw [node?, ofPhrase, getElem?_link, Option.map_eq_some_iff] at hn
  obtain ⟨m, hm, rfl⟩ := hn
  exact located m (Array.mem_of_getElem? hm)

/-- A node is within itself and whatever it is reached from. -/
inductive Within (t : Tree) (id : NodeId) : NodeId → Prop
  | self : t.Within id id
  | child {c p : NodeId} (within : t.Within id c) (hc : c ∈ t.children p) : t.Within id p

/-- The innermost statement around a node. -/
structure Innermost (t : Tree) (s id : NodeId) : Prop where
  statement : t.isStatement s = true
  within : t.Within id s
  innermost : ∀ x, t.isStatement x = true → t.Within id x → t.Within s x

lemma Within.trans {a b c : NodeId} (hab : t.Within a b) (hbc : t.Within b c) : t.Within a c := by
  induction hbc with
  | self => exact hab
  | child _ hc ih => exact ih.child hc

lemma Within.lt_size {a b : Nat} (within : t.Within a b) (ha : a < t.size) : b < t.size := by
  induction within with
  | self => exact ha
  | child _ hc _ => exact lt_size_of_mem_children hc

/-- The program is no statement. -/
lemma isProgram_of_isStatement {id : NodeId} (hs : t.isStatement id = true) :
    (t.kind id).isProgram = false := by
  cases hk : t.kind id with
  | program body =>
    rw [isStatement, hk] at hs
    cases hs
  | _ => rfl

lemma within_of_mem_postOrderFrom {fuel id a : NodeId} (h : a ∈ t.postOrderFrom fuel id) :
    t.Within a id := by
  induction fuel generalizing id with
  | zero => cases h
  | succ fuel ih =>
    rw [postOrderFrom, List.mem_append] at h
    rcases h with below | own
    · obtain ⟨c, hc, ha⟩ := List.mem_flatMap.mp below
      exact (ih ha).child hc
    · obtain rfl := List.mem_singleton.mp own
      exact .self

namespace WellFormed

variable (h : t.WellFormed)
include h

/-- What is around a node is the node or around its parent. -/
lemma within_cases {id x : NodeId} (within : t.Within id x) :
    id = x ∨ ∃ p, t.parent id = some p ∧ t.Within p x := by
  induction within with
  | self => exact .inl rfl
  | child _ hc ih =>
    rcases ih with rfl | ⟨p, hp, above⟩
    · exact .inr ⟨_, (h.parent_iff _ _).mpr hc, .self⟩
    · exact .inr ⟨p, hp, above.child hc⟩

lemma within_root {id : Nat} (hid : id < t.size) : t.Within id (t.size - 1) := by
  induction hk : t.size - id using Nat.strongRecOn generalizing id with
  | ind k ih =>
    by_cases last : id + 1 < t.size
    · obtain ⟨p, hp⟩ := h.has_parent id last
      have hlt := h.lt_parent ((h.parent_iff id p).mpr hp)
      exact (Within.self.child hp).trans (ih (t.size - p) (by omega) hlt.2 rfl)
    · obtain rfl : id = t.size - 1 := by omega
      exact .self

lemma innermost_of_climbs {id s : NodeId} (climbs : t.Climbs id (some s)) : t.Innermost s id := by
  generalize hfound : some s = found at climbs
  induction climbs with
  | here statement =>
    obtain rfl := Option.some.inj hfound
    exact ⟨statement, .self, fun x _ within => within⟩
  | top => cases hfound
  | @up id p found plain parent rest ih =>
    obtain ⟨statement, within, innermost⟩ := ih hfound
    have hp : id ∈ t.children p := (h.parent_iff id p).mp parent
    refine ⟨statement, (Within.self.child hp).trans within, fun x hx around => ?_⟩
    rcases h.within_cases around with rfl | ⟨p', hp', above⟩
    · rw [plain] at hx
      cases hx
    · obtain rfl : p = p' := Option.some.inj (parent.symm.trans hp')
      exact innermost x hx above

lemma innermost_of_statementOf {id s : NodeId} (hs : t.statementOf id = some s) :
    t.Innermost s id :=
  h.innermost_of_climbs (hs ▸ h.climbs_statementOf id)

end WellFormed

lemma Spanned.bounds {all : List Token} (h : t.Spanned all) {c p : NodeId}
    (within : t.Within c p) :
    (t.span p).start ≤ (t.span c).start ∧ (t.span c).stop ≤ (t.span p).stop := by
  induction within with
  | self => exact ⟨Nat.le_refl _, Nat.le_refl _⟩
  | @child d p _ hd ih =>
    have : (t.span p).start ≤ (t.span d).start ∧ (t.span d).stop ≤ (t.span p).stop :=
      of_decide_eq_true (h.encloses p d hd)
    omega

/-- In post-order a node is within a later one or stops before that one starts. -/
lemma pairwise_postOrderFrom {all : List Token} (h : t.WellFormed) (spanned : t.Spanned all)
    {fuel id : Nat} (hid : id < fuel) :
    (t.postOrderFrom fuel id).Pairwise fun a b =>
      t.Within a b ∨ (t.span a).stop ≤ (t.span b).start := by
  induction id using Nat.strongRecOn with
  | ind id ih =>
    rw [h.postOrderFrom_eq hid, List.pairwise_append]
    refine ⟨?_, List.pairwise_singleton _ _, fun a ha b hb => ?_⟩
    · rw [List.pairwise_flatMap]
      constructor
      · intro c hc
        have := h.child_lt id c hc
        exact ih c this (by omega)
      · refine (spanned.pairwise id).imp fun {c d} apart a ha b hb => .inr ?_
        have := (spanned.bounds (within_of_mem_postOrderFrom ha)).2
        have := (spanned.bounds (within_of_mem_postOrderFrom hb)).1
        omega
    · obtain rfl := List.mem_singleton.mp hb
      obtain ⟨c, hc, ha⟩ := List.mem_flatMap.mp ha
      exact .inl ((within_of_mem_postOrderFrom ha).child hc)

/-- A tree whose nodes have the spans and the lines that they have in a text, in post-order. -/
structure LaidOut (text : String) (t : Tree) : Prop where
  wellFormed : t.WellFormed
  postOrder_eq : t.postOrder = List.range t.size
  nonempty : ∀ id < t.size, (t.kind id).isProgram = false → (t.span id).start < (t.span id).stop
  bounds : ∀ c p, t.Within c p →
    (t.span p).start ≤ (t.span c).start ∧ (t.span c).stop ≤ (t.span p).stop
  apart : ∀ a b, a < b → b < t.size → t.Within a b ∨ (t.span a).stop ≤ (t.span b).start
  location : ∀ {id n}, t.node? id = some n →
    n.location = some ((LineTable.ofText text).location n.span)

lemma spanned_of_parse {text : String} {options : ParseOptions}
    (h : Tree.parse text options = .ok t) : ∃ all, t.Spanned all := by
  obtain ⟨p, hp, rfl⟩ := Tree.parse_eq_ok.mp h
  unfold Phrase.parse at hp
  split at hp
  · cases hp
  · rename_i all htokens
    have start := Cursor.along_start (Token.ordered_ofText htokens)
    have body := Grammar.programBody_meets (Grammar.depthFor all.length) start
    rw [Grammar.program] at hp
    cases hbody : Grammar.programBody (Grammar.depthFor all.length) (.start all) with
    | error e =>
      rw [hbody] at hp
      cases hp
    | ok x =>
      rw [hbody] at body hp
      obtain rfl := Except.ok.inj hp
      have inText : x.2.lastStop ≤ text.utf8ByteSize := by
        rcases body.along.lastStop with zero | ⟨last, mem, -, stop⟩
        · omega
        · exact stop ▸ (Token.liesIn_ofText htokens mem).stop_le
      have row : Phrase.Row all 0 x.1 text.utf8ByteSize := body.row.mono (Nat.le_refl 0) inText
      exact ⟨all, spanned_link (spanned_numbered row rfl) _⟩

theorem laidOut_of_parse {text : String} {options : ParseOptions}
    (locations : options.locations = true) (h : Tree.parse text options = .ok t) :
    t.LaidOut text := by
  have wellFormed := wellFormed_of_parse h
  obtain ⟨all, spanned⟩ := spanned_of_parse h
  have listed := postOrderFrom_of_parse h
  obtain ⟨p, -, rfl⟩ := Tree.parse_eq_ok.mp h
  rw [if_pos locations] at wellFormed spanned listed ⊢
  exact {
    wellFormed
    postOrder_eq := (wellFormed.walked listed).postOrder_eq
    nonempty := fun id hid hk => (spanned.covers id hid hk).nonempty
    bounds := fun c p => spanned.bounds
    apart := by
      intro a b hab hb
      have ordered := pairwise_postOrderFrom wellFormed spanned
        (Nat.sub_lt (Nat.zero_lt_of_lt hb) Nat.one_pos)
      rw [listed] at ordered
      have := List.pairwise_iff_getElem.mp ordered a b (by simpa using Nat.lt_trans hab hb)
        (by simpa using hb) hab
      simpa using this
    location := location_ofPhrase }

namespace LaidOut

variable {text : String} (h : t.LaidOut text)
include h

/-- A node starts on the line on which its span starts. -/
lemma startsOn_iff {line id : Nat} :
    t.startsOn line id = true ↔ id < t.size ∧ (t.kind id).isProgram = false ∧
      ((LineTable.ofText text).position (t.span id).start).line = line := by
  cases hn : t.node? id with
  | none =>
    have outside : t.size ≤ id := Array.getElem?_eq_none_iff.mp hn
    rw [startsOn, hn]
    constructor
    · intro none
      cases none
    · rintro ⟨inside, -⟩
      omega
  | some n =>
    have inside : id < t.size := (Array.getElem?_eq_some_iff.mp hn).1
    have kind : t.kind id = n.kind := kind_of_getElem? hn
    have get : t.nodes[id]? = some n := hn
    have span : t.span id = n.span := by rw [Tree.span, get, Option.map_some, Option.getD_some]
    have startLine : n.startLine = some ((LineTable.ofText text).position n.span.start).line := by
      rw [Node.startLine, h.location hn]
      rfl
    rw [startsOn, hn, Option.any_some, startLine, kind, span]
    simp [inside]

/-- The last line is that of the end of the program. -/
lemma lastLine_eq : t.lastLine =
    some ((LineTable.ofText text).position (t.span (t.size - 1)).stop).line := by
  obtain ⟨n, hn, hroot⟩ := h.wellFormed.root
  have last : n = t.size - 1 := by omega
  have inside : n < t.nodes.size := lt_of_lt_of_eq (Nat.lt_succ_self n) hn.symm
  obtain ⟨m, hm⟩ : ∃ m, t.nodes[n]? = some m := ⟨_, Array.getElem?_eq_getElem inside⟩
  have span : t.span n = m.span := by rw [Tree.span, hm, Option.map_some, Option.getD_some]
  have get : t.node? n = some m := hm
  rw [← last, span, lastLine, hroot, Option.bind_eq_bind, Option.bind_some, hm]
  simp only [Option.bind_eq_bind, Option.bind_some, h.location get]
  rfl

/-- No node starts after the last line. -/
lemma le_lastLine {line id last : Nat} (starts : t.startsOn line id = true)
    (hlast : t.lastLine = some last) : 1 ≤ line ∧ line ≤ last := by
  obtain ⟨inside, inner, rfl⟩ := h.startsOn_iff.mp starts
  obtain rfl := Option.some.inj (h.lastLine_eq.symm.trans hlast)
  have stops := h.nonempty id inside inner
  have bounds := h.bounds id (t.size - 1) (h.wellFormed.within_root inside)
  exact ⟨LineTable.one_le_line _ _, LineTable.line_mono _ (by omega)⟩

/-- What is within a node starts on its line or further down. -/
lemma line_le_of_within {a b l m : Nat} (within : t.Within a b) (ha : t.startsOn l a = true)
    (hb : t.startsOn m b = true) : m ≤ l := by
  obtain ⟨-, -, rfl⟩ := h.startsOn_iff.mp ha
  obtain ⟨-, -, rfl⟩ := h.startsOn_iff.mp hb
  exact LineTable.line_mono _ (h.bounds a b within).1

/-- The statement around a node that starts on a line starts on a line as well. -/
lemma exists_line_of_innermost {line s id : Nat} (starts : t.startsOn line id = true)
    (innermost : t.Innermost s id) : ∃ l, t.startsOn l s = true := by
  have inside := innermost.within.lt_size (h.startsOn_iff.mp starts).1
  have inner := isProgram_of_isStatement innermost.statement
  exact ⟨_, h.startsOn_iff.mpr ⟨inside, inner, rfl⟩⟩

end LaidOut

end Tree

end ScriptDebugger
