import ScriptDebugger.Proofs.Syntax.Moved
import ScriptDebugger.Proofs.Syntax.WellFormed

/-!
# Nodes of moved phrases

A phrase whose spans are changed is numbered like the phrase itself: its nodes are the
same, but for their spans and what has been located from them. Moving all offsets by
one function is a case of this.
-/

namespace ScriptDebugger

variable {f : Nat → Nat}

lemma NodeKind.fill_map {α β γ : Type} [Inhabited β] [Inhabited γ] (g : α → β)
    (kind : NodeKind α) (cs : List γ) : (kind.map g).fill cs = kind.fill cs := by
  cases kind with
  | variableDeclarator name init => cases init <;> rfl
  | functionDeclaration name params body =>
    rw [map_functionDeclaration]
    simp only [fill, List.length_map]
  | functionExpression name params body =>
    rw [map_functionExpression]
    cases name <;> simp only [fill, List.length_map, Option.map_none, Option.map_some] <;> rfl
  | ifStatement test consequent alternate => cases alternate <;> rfl
  | forStatement init test update body =>
    cases init <;> cases test <;> cases update <;> rfl
  | returnStatement argument => cases argument <;> rfl
  | _ => rfl

/-- The node that a phrase with the images of all spans has in place of `n`. -/
def Node.mapSpan (g : Span → Span) (locate : Span → Option SourceLocation) (n : Node) : Node :=
  { n with span := g n.span, location := locate (g n.span) }

/-- The node that a moved phrase has in place of `n`. -/
def Node.move (f : Nat → Nat) (locate : Span → Option SourceLocation) (n : Node) : Node :=
  { n with span := n.span.move f, location := locate (n.span.move f) }

namespace Phrase

/-- The same phrase with the images of all spans. -/
def mapSpans (g : Span → Span) (p : Phrase) : Phrase :=
  ⟨g p.span, p.kind.fill (p.children.attach.map fun c => mapSpans g c.1)⟩
  termination_by sizeOf p
  decreasing_by exact sizeOf_lt_of_mem c.2

variable {g : Span → Span}

lemma mapSpans_mk (g : Span → Span) (span : Span) (kind : NodeKind Phrase) :
    mapSpans g ⟨span, kind⟩ = ⟨g span, kind.map (mapSpans g)⟩ := by
  rw [mapSpans, NodeKind.map]
  simp [Phrase.kind, Phrase.span, Phrase.children]

lemma span_mapSpans (p : Phrase) : (p.mapSpans g).span = g p.span := by
  obtain ⟨span, kind⟩ := p
  rw [mapSpans_mk]
  rfl

lemma kind_mapSpans (p : Phrase) : (p.mapSpans g).kind = p.kind.map (mapSpans g) := by
  obtain ⟨span, kind⟩ := p
  rw [mapSpans_mk]
  rfl

lemma children_mapSpans (p : Phrase) : (p.mapSpans g).children = p.children.map (mapSpans g) := by
  rw [children, kind_mapSpans, NodeKind.map, NodeKind.children_fill (List.length_map ..)]
  rfl

lemma move_eq_mapSpans (f : Nat → Nat) : move f = mapSpans (Span.move f) := by
  funext p
  induction p using induct with
  | h p ih =>
    obtain ⟨span, kind⟩ := p
    have children : kind.children.map (move f) = kind.children.map (mapSpans (Span.move f)) :=
      List.map_congr_left ih
    rw [move_mk, mapSpans_mk, NodeKind.map, NodeKind.map, children]

variable {locate locate' : Span → Option SourceLocation}

lemma numberAll_mapSpans {cs : List Phrase}
    (h : ∀ c ∈ cs, ∀ nodes : Array Node,
      (c.mapSpans g).number locate' (nodes.map (Node.mapSpan g locate')) =
        (c.number locate nodes).map (Node.mapSpan g locate'))
    (nodes : Array Node) :
    numberAll locate' (nodes.map (Node.mapSpan g locate')) (cs.map (mapSpans g)) =
      ((numberAll locate nodes cs).1.map (Node.mapSpan g locate'),
        (numberAll locate nodes cs).2) := by
  induction cs generalizing nodes with
  | nil => rfl
  | cons c cs ih =>
    simp only [numberAll, List.map_cons, h c (by simp), Array.size_map,
      ih (fun d hd => h d (by simp [hd]))]

theorem number_mapSpans (p : Phrase) (nodes : Array Node) :
    (p.mapSpans g).number locate' (nodes.map (Node.mapSpan g locate')) =
      (p.number locate nodes).map (Node.mapSpan g locate') := by
  induction p using induct generalizing nodes with
  | h p ih =>
    rw [number_eq, number_eq, children_mapSpans, numberAll_mapSpans ih, kind_mapSpans,
      span_mapSpans, NodeKind.fill_map, Array.map_push]
    rfl

lemma numberAll_move (cs : List Phrase) (nodes : Array Node) :
    numberAll locate' (nodes.map (Node.move f locate')) (cs.map (move f)) =
      ((numberAll locate nodes cs).1.map (Node.move f locate'), (numberAll locate nodes cs).2) := by
  rw [move_eq_mapSpans]
  exact numberAll_mapSpans (fun c _ => number_mapSpans c) nodes

end Phrase

end ScriptDebugger
