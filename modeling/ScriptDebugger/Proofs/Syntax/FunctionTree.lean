import ScriptDebugger.Proofs.Syntax.FunctionText
import ScriptDebugger.Proofs.Syntax.Shape

/-!
# Trees of one function

The tree of a function's text holds a copy of the function: the same kinds of nodes in
the same arrangement, with numbers of their own and with their spans moved
(`exists_tree_of_function`).
-/

namespace ScriptDebugger

namespace NodeKind

variable {α β : Type} [Inhabited β]

@[simp] lemma asExpression_fill (kind : NodeKind α) (cs : List β) :
    (kind.fill cs).asExpression = kind.asExpression.fill cs := by
  cases kind <;> rfl

@[simp] lemma name?_fill (kind : NodeKind α) (cs : List β) : (kind.fill cs).name? = kind.name? := by
  cases kind <;> rfl

lemma children_asExpression (kind : NodeKind α) : kind.asExpression.children = kind.children := by
  cases kind <;> rfl

lemma roles_asExpression (kind : NodeKind α) : kind.asExpression.roles = kind.roles := by
  cases kind <;> rfl

/-- A function with other children has a name, parameters and a body where the function has them. -/
lemma exists_fill_function {R : α → β → Prop} {name : Option α} {params : List α} {body : α}
    {cs : List β} (h : List.Forall₂ R (functionExpression name params body).children cs) :
    ∃ name' params' body',
      (functionExpression name params body).fill cs = functionExpression name' params' body' ∧
      Option.Rel R name name' ∧ List.Forall₂ R params params' ∧ R body body' := by
  have rest {cs : List β} (h : List.Forall₂ R (params ++ [body]) cs) :
      List.Forall₂ R params (cs.take params.length) ∧
        R body (pop (cs.drop params.length)).1 := by
    have params' := List.forall₂_take params.length h
    have body' := List.forall₂_drop params.length h
    rw [List.take_left] at params'
    rw [List.drop_left] at body'
    obtain ⟨c, drop, body'⟩ := exists_of_forall₂_singleton body'
    rw [drop]
    exact ⟨params', body'⟩
  cases name with
  | none => exact ⟨none, _, _, rfl, .none, rest h⟩
  | some name =>
    cases h with
    | cons name' h => exact ⟨some _, _, _, rfl, .some name', rest h⟩

end NodeKind

namespace Tree

/-- The node `id'` of the tree `t'` is what `id` is in `t`, and so are the nodes below them. Bytes
have gone where `f` says. -/
inductive Copy (f : Nat → Nat) (t t' : Tree) : NodeId → NodeId → Prop
  | mk {id id' : NodeId} {ids : List NodeId} (kind : t'.kind id' = (t.kind id).fill ids)
      (span : t'.span id' = (t.span id).move f)
      (children : List.Forall₂ (Copy f t t') (t.children id) ids) : Copy f t t' id id'

variable {f : Nat → Nat} {t t' : Tree} {id id' : NodeId} {p : Phrase}

lemma Copy.nameOf_eq (h : Copy f t t' id id') : t'.nameOf id' = t.nameOf id := by
  obtain ⟨kind, -, -⟩ := h
  rw [nameOf, nameOf, kind, NodeKind.name?_fill]

/-- The nodes of a moved phrase are copies of those of the phrase. -/
lemma copy_of_placed (h : Phrase.Placed t.nodes p id)
    (h' : Phrase.Placed t'.nodes (p.mapSpans (Span.move f)) id') : Copy f t t' id id' := by
  induction p using Phrase.induct generalizing id id' with
  | h p ih =>
    obtain ⟨ids, kind, children, span, -, sub⟩ := exists_children_of_placed h
    obtain ⟨ids', kind', -, span', -, sub'⟩ := exists_children_of_placed h'
    have filled : t'.kind id' = (t.kind id).fill ids' := by
      rw [kind', kind, Phrase.kind_mapSpans, NodeKind.fill_map,
        NodeKind.fill_fill sub.length_eq.symm]
    have moved : t'.span id' = (t.span id).move f := by rw [span', span, Phrase.span_mapSpans]
    have copies : List.Forall₂ (Copy f t t') (t.children id) ids' := by
      rw [Phrase.children_mapSpans, List.forall₂_map_left_iff] at sub'
      rw [children]
      have copies := forall₂_imp_mem sub (S := fun q id => ∀ id',
        Phrase.Placed t'.nodes (q.mapSpans (Span.move f)) id' → Copy f t t' id id')
        fun q hq _ _ placed _ placed' => ih q hq placed placed'
      exact forall₂_comp (fun _ _ _ copy placed' => copy _ placed') copies.flip sub'
    exact .mk filled moved copies

lemma copies_of_placed {ps : List Phrase} {ids ids' : List NodeId}
    (h : List.Forall₂ (Phrase.Placed t.nodes) ps ids)
    (h' : List.Forall₂ (Phrase.Placed t'.nodes) (ps.map (Phrase.mapSpans (Span.move f))) ids') :
    List.Forall₂ (Copy f t t') ids ids' := by
  rw [List.forall₂_map_left_iff] at h'
  have copy (id : NodeId) (p : Phrase) (id' : NodeId) (placed : Phrase.Placed t.nodes p id)
      (placed' : Phrase.Placed t'.nodes (p.mapSpans (Span.move f)) id') : Copy f t t' id id' :=
    copy_of_placed placed placed'
  exact forall₂_comp copy h.flip h'

/-- A program that is one statement, the expression `id`. -/
structure SoleExpression (t : Tree) (id : NodeId) : Prop where
  root : t.root = some (t.size - 1)
  statement : ∃ s, t.kind (t.size - 1) = .program [s] ∧ t.kind s = .expressionStatement id

lemma soleExpression_ofPhrase (table? : Option LineTable) (sourceType : SourceType)
    (s₀ s₁ : Span) (e : Phrase) :
    ∃ id, (ofPhrase table? sourceType ⟨s₀, .program [⟨s₁, .expressionStatement e⟩]⟩).SoleExpression
        id ∧
      Phrase.Placed
        (ofPhrase table? sourceType ⟨s₀, .program [⟨s₁, .expressionStatement e⟩]⟩).nodes e id := by
  obtain ⟨n, size, root, placed⟩ :=
    placed_ofPhrase table? sourceType ⟨s₀, .program [⟨s₁, .expressionStatement e⟩]⟩
  obtain ⟨ids, program, -, -, -, inner⟩ := exists_children_of_placed placed
  obtain ⟨s, rfl, statement⟩ := exists_of_forall₂_singleton inner
  obtain ⟨ids, kind, -, -, -, inner⟩ := exists_children_of_placed statement
  obtain ⟨id, rfl, placed⟩ := exists_of_forall₂_singleton inner
  refine ⟨id, ⟨?_, s, ?_, kind⟩, placed⟩
  · rw [size, root]
    rfl
  · rw [size]
    exact program

/-- A node that is a function was read as one. -/
lemma Spelled.exists_function {text : String} {all : List Token} {body : List Phrase} {c : Cursor}
    (h : t.Spelled text all body c) {name : Option NodeId} {params : List NodeId} {rest : NodeId}
    (function : (t.kind id).asExpression = .functionExpression name params rest) :
    ∃ q name params rest, Phrase.Placed t.nodes q id ∧
      q.kind.asExpression = .functionExpression name params rest ∧
      Grammar.ReadsFunction (.start all) q.span name params rest := by
  have known : id < t.size := by
    by_contra beyond
    rw [kind_of_size_le (Nat.le_of_not_lt beyond)] at function
    cases function
  have inner : id < t.size - 1 := by
    obtain ⟨ids, program⟩ := h.wellFormed.program
    refine Nat.lt_of_le_of_ne (Nat.le_sub_one_of_lt known) fun last => ?_
    rw [last, program] at function
    cases function
  obtain ⟨p, mem, q, within, placed⟩ := h.inner id inner
  obtain ⟨d, derived⟩ := h.derived
  obtain ⟨ids, kind, -⟩ := exists_children_of_placed placed
  have founded := derived.founded (.refl _) trivial p mem q within
  rw [kind, NodeKind.asExpression_fill] at function
  cases own : q.kind.asExpression
  case functionExpression name params rest =>
    exact ⟨q, name, params, rest, placed, own, founded _ _ _ own⟩
  all_goals
    rw [own] at function
    cases function

/-- The nodes of a function and of the same function, moved, as an expression. -/
lemma exists_copy_of_function {qname : Option Phrase} {qparams : List Phrase} {qbody : Phrase}
    (h : Phrase.Placed t.nodes p id)
    (own : p.kind.asExpression = .functionExpression qname qparams qbody)
    (h' : Phrase.Placed t'.nodes
      (Phrase.mapSpans (Span.move f) ⟨p.span, .functionExpression qname qparams qbody⟩) id')
    {name : Option NodeId} {params : List NodeId} {body : NodeId}
    (function : (t.kind id).asExpression = .functionExpression name params body) :
    ∃ name' params' body', t'.kind id' = .functionExpression name' params' body' ∧
      t'.span id' = (t.span id).move f ∧ Option.Rel (Copy f t t') name name' ∧
      List.Forall₂ (Copy f t t') params params' ∧ Copy f t t' body body' := by
  obtain ⟨ids, kind, -, span, -, sub⟩ := exists_children_of_placed h
  obtain ⟨ids', kind', -, span', -, sub'⟩ := exists_children_of_placed h'
  rw [Phrase.kind_mapSpans, NodeKind.fill_map] at kind'
  rw [Phrase.span_mapSpans] at span'
  rw [Phrase.children_mapSpans] at sub'
  rw [kind, NodeKind.asExpression_fill, own] at function
  have children : p.children = (NodeKind.functionExpression qname qparams qbody).children := by
    rw [← own, NodeKind.children_asExpression]
    rfl
  rw [children] at sub
  have copies : List.Forall₂ (Copy f t t') ids ids' := copies_of_placed sub sub'
  have count := sub.length_eq.symm
  have same : (NodeKind.functionExpression name params body).children = ids := by
    rw [← function, NodeKind.children_fill count]
  rw [← same] at copies
  obtain ⟨name', params', body', filled, rest⟩ := NodeKind.exists_fill_function copies
  rw [← function, NodeKind.fill_fill count] at filled
  exact ⟨name', params', body', kind'.trans filled, span'.trans (span ▸ rfl), rest⟩

/-- The text of a function in parentheses is a program of one function, whose name, parameters and
body are copies of those in the tree. -/
theorem exists_tree_of_function {text : String} {options : ParseOptions}
    (parsed : Tree.parse text options = .ok t) {name : Option NodeId} {params : List NodeId}
    {body : NodeId} (function : (t.kind id).asExpression = .functionExpression name params body)
    (options' : ParseOptions) :
    ∃ t' id' name' params' body',
      Tree.parse (parenthesize ((t.span id).slice text)) options' = .ok t' ∧
      t'.SoleExpression id' ∧ t'.kind id' = .functionExpression name' params' body' ∧
      t'.span id' = (t.span id).move (Token.reseat (t.span id).start) ∧
      Option.Rel (Copy (Token.reseat (t.span id).start) t t') name name' ∧
      List.Forall₂ (Copy (Token.reseat (t.span id).start) t t') params params' ∧
      Copy (Token.reseat (t.span id).start) t t' body body' := by
  obtain ⟨all, phrases, c, spelled⟩ := spelled_of_parse parsed
  obtain ⟨q, qname, qparams, qbody, placed, own, d, c₁, c₂, on, word, read⟩ :=
    spelled.exists_function function
  have span : t.span id = q.span := by
    obtain ⟨-, -, -, span, -⟩ := exists_children_of_placed placed
    exact span
  rw [span]
  set source := parenthesize (q.span.slice text)
  obtain ⟨ts, s, lexed, program⟩ :=
    Grammar.exists_program_of_function spelled.lexed on word read source.utf8ByteSize
  replace lexed : Token.ofText source = .ok ts := lexed
  have phrase : Phrase.parse source = Grammar.program source.utf8ByteSize ts := by
    rw [Phrase.parse, lexed]
  obtain ⟨id', sole, placed'⟩ := soleExpression_ofPhrase
    (if options'.locations then some (.ofText source) else none) options'.sourceType
    ⟨0, source.utf8ByteSize⟩ s
    ((Displacement.reseat q.span.start).phrase
      ⟨q.span, .functionExpression qname qparams qbody⟩)
  obtain ⟨name', params', body', kind', span', copies⟩ :=
    exists_copy_of_function placed own placed' function
  exact ⟨_, id', name', params', body', parse_eq_ok.mpr ⟨_, phrase.trans program, rfl⟩,
    sole, kind', span ▸ span', copies⟩

end Tree

end ScriptDebugger
