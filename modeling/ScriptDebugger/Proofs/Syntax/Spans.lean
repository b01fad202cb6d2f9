import ScriptDebugger.Debugger.Breakpoint
import ScriptDebugger.Proofs.Syntax.ExtentGrammar
import ScriptDebugger.Proofs.Syntax.Shape

/-!
# Spans of trees

The nodes of a tree have the spans of the phrases that they were numbered from:
each but the program covers tokens, and the children of a node lie within it,
one after the other. The span of an error lies in the text.
-/

namespace ScriptDebugger

/-- The spans of a tree over the tokens of its text. -/
structure Tree.Spanned (all : List Token) (t : Tree) : Prop where
  covers : ∀ id < t.size, (t.kind id).isProgram = false → (t.span id).Covers all
  encloses : ∀ p c, c ∈ t.children p → (t.span p).encloses (t.span c) = true
  pairwise : ∀ p, (t.children p).Pairwise fun a b => (t.span a).stop ≤ (t.span b).start

lemma Span.Marks.liesIn {text : String} {all : List Token} {s : Span}
    (h : Token.ofText text = .ok all) (hs : s.Marks all) : s.LiesIn text := by
  cases hs with
  | token mem => exact Token.liesIn_ofText h mem
  | tokens covers =>
    obtain ⟨nonempty, ⟨t, ht, -, start⟩, ⟨u, hu, -, stop⟩⟩ := covers
    refine Span.liesIn_of_boundary (Nat.le_of_lt nonempty) ?_ ?_
    · rw [← start]
      exact (Token.liesIn_ofText h ht).start_boundary
    · rw [← stop]
      exact (Token.liesIn_ofText h hu).stop_boundary

namespace Tree

variable {all : List Token} {t : Tree} {p q : Phrase} {id : NodeId} {lo hi : Nat}

lemma span_of_placed (h : Phrase.Placed t.nodes q id) : q.span = t.span id := by
  cases h with
  | mk get kind span children => simp only [Tree.span, get, Option.map_some, Option.getD_some, span]

lemma spans_of_placed (h : Phrase.Placed t.nodes q id) :
    q.children.map Phrase.span = (t.children id).map t.span := by
  cases h with
  | mk get kind span children =>
    rw [Tree.children, kind_of_getElem? get, kind, NodeKind.children_fill children.length_eq.symm,
      ← List.forall₂_eq_eq_eq, List.forall₂_map_left_iff, List.forall₂_map_right_iff]
    exact children.imp fun _ _ hc => span_of_placed hc

/-- The children of the node of a phrase lie where its sub-phrases do. -/
lemma row_of_placed (h : Phrase.Placed t.nodes q id) (row : Phrase.Row all lo q.children hi) :
    (∀ c ∈ t.children id, lo ≤ (t.span c).start ∧ (t.span c).stop ≤ hi) ∧
      (t.children id).Pairwise fun a b => (t.span a).stop ≤ (t.span b).start := by
  have spans := spans_of_placed h
  constructor
  · intro c hc
    have : t.span c ∈ q.children.map Phrase.span := spans ▸ List.mem_map_of_mem hc
    obtain ⟨r, hr, hspan⟩ := List.mem_map.mp this
    rw [← hspan]
    exact row.inside hr
  · have ordered : (q.children.map Phrase.span).Pairwise fun a b => a.stop ≤ b.start :=
      List.pairwise_map.mpr row.pairwise
    rw [spans] at ordered
    exact List.pairwise_map.mp ordered

section Numbered

variable {locate : Span → Option SourceLocation} {sourceType : SourceType}

/-- The nodes of a program whose statements follow one another within its span. -/
lemma spanned_numbered (row : Phrase.Row all p.span.start p.children p.span.stop)
    {body : List Phrase} (hkind : p.kind = .program body) :
    (numbered locate sourceType p).Spanned all := by
  obtain ⟨n, hn⟩ := size_numbered locate sourceType p
  set t := numbered locate sourceType p
  have root : Phrase.Placed t.nodes p n := placed_last hn
  have inner : ∀ id < n, ∃ q, q.Spaced all ∧ Phrase.Placed t.nodes q id := by
    intro id hid
    have size : (p.number locate #[]).size = n + 1 := hn
    obtain ⟨c, hc, q, hwithin, hplaced⟩ := Phrase.covered_inner locate p #[]
      (Nat.zero_le id) (by omega : id + 1 < _)
    exact ⟨q, (row.spaced hc).within hwithin, hplaced⟩
  have rows : ∀ id, (∀ c ∈ t.children id, (t.span id).encloses (t.span c) = true) ∧
      (t.children id).Pairwise fun a b => (t.span a).stop ≤ (t.span b).start := by
    intro id
    have of_row {q : Phrase} (hq : Phrase.Placed t.nodes q id)
        (row : Phrase.Row all q.span.start q.children q.span.stop) :
        (∀ c ∈ t.children id, (t.span id).encloses (t.span c) = true) ∧
          (t.children id).Pairwise fun a b => (t.span a).stop ≤ (t.span b).start := by
      obtain ⟨inside, ordered⟩ := row_of_placed hq row
      rw [span_of_placed hq] at inside
      exact ⟨fun c hc => decide_eq_true (inside c hc), ordered⟩
    rcases Nat.lt_trichotomy id n with hid | rfl | hid
    · obtain ⟨q, hq, hplaced⟩ := inner id hid
      exact of_row hplaced hq.children
    · exact of_row root row
    · rw [children_of_size_le (by omega)]
      exact ⟨fun c hc => absurd hc List.not_mem_nil, List.Pairwise.nil⟩
  exact {
    covers := by
      intro id hid hprogram
      have hne : id ≠ n := by
        rintro rfl
        cases root with
        | mk get kind span children =>
          rw [kind_of_getElem? get, kind, hkind] at hprogram
          cases hprogram
      obtain ⟨q, hq, hplaced⟩ := inner id (by omega)
      exact span_of_placed hplaced ▸ hq.covers
    encloses := fun id c hc => (rows id).1 c hc
    pairwise := fun id => (rows id).2 }

end Numbered

lemma spanned_link (h : t.Spanned all) (root : NodeId) : (t.link root).Spanned all where
  covers := by
    intro id hid hprogram
    rw [size_link] at hid
    rw [kind_link] at hprogram
    rw [span_link]
    exact h.covers id hid hprogram
  encloses := by
    intro id c hc
    rw [children_link] at hc
    rw [span_link, span_link]
    exact h.encloses id c hc
  pairwise := by
    intro id
    simp only [children_link, span_link]
    exact h.pairwise id

/-- A text that parses gives a tree over its tokens; the error of one that does not lies in it. -/
theorem spans_of_parse (text : String) (options : ParseOptions) :
    match Tree.parse text options with
    | .ok t => ∃ all, Token.ofText text = .ok all ∧ t.Spanned all
    | .error e => e.span.LiesIn text := by
  rw [Tree.parse_eq, Phrase.parse]
  cases htokens : Token.ofText text with
  | error e => exact Token.liesIn_of_error htokens
  | ok all =>
    have start := Cursor.along_start (Token.ordered_ofText htokens)
    have body := Grammar.programBody_meets (Grammar.depthFor all.length) start
    dsimp only
    rw [Grammar.program]
    cases hbody : Grammar.programBody (Grammar.depthFor all.length) (.start all) with
    | error e =>
      rw [hbody] at body
      exact Span.Marks.liesIn htokens body
    | ok x =>
      rw [hbody] at body
      have inText : x.2.lastStop ≤ text.utf8ByteSize := by
        rcases body.along.lastStop with zero | ⟨t, ht, -, stop⟩
        · omega
        · rw [← stop]
          exact (Token.liesIn_ofText htokens ht).stop_le
      have row : Phrase.Row all 0 x.1 text.utf8ByteSize := body.row.mono (Nat.le_refl 0) inText
      exact ⟨all, rfl, spanned_link (spanned_numbered row rfl) _⟩

end Tree

end ScriptDebugger
