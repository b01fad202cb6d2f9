import Mathlib.Data.Nat.Find
import ScriptDebugger.Proofs.Debugger.Wrapped
import ScriptDebugger.Proofs.Syntax.Allocation
import ScriptDebugger.Proofs.Syntax.MovedNumbering

/-!
# Trees of wrapped texts

The tree of a wrapped text begins with the nodes of the text. Only the last of
them, the program, is a block there, and the three nodes of the function around
it follow.
-/

namespace ScriptDebugger

namespace Phrase

variable {locate : Span → Option SourceLocation}

/-- The nodes of a program whose only statement is a function with some body. -/
lemma number_function (s₀ s₁ s₂ s₃ : Span) (ps : List Phrase) :
    (Phrase.number locate #[] ⟨s₀, .program [⟨s₁, .expressionStatement
        ⟨s₂, .functionExpression none [] ⟨s₃, .blockStatement ps⟩⟩⟩]⟩) =
      let inner := numberAll locate #[] ps
      let n := inner.1.size
      (((inner.1.push (.fresh (.blockStatement inner.2) s₃ (locate s₃))).push
        (.fresh (.functionExpression none [] n) s₂ (locate s₂))).push
        (.fresh (.expressionStatement (n + 1)) s₁ (locate s₁))).push
        (.fresh (.program [n + 2]) s₀ (locate s₀)) := by
  simp [number_eq, numberAll, children, kind, span, NodeKind.children, NodeKind.fill,
    NodeKind.pop, NodeKind.popOption]

lemma parse_eq_program {text : String} {p : Phrase} (h : Phrase.parse text = .ok p) :
    ∃ s body, p = ⟨s, .program body⟩ := by
  rw [Phrase.parse] at h
  cases lexed : Token.ofText text with
  | error e => rw [lexed] at h; cases h
  | ok ts =>
    rw [lexed] at h
    obtain ⟨body, c, -, rfl⟩ := Grammar.program_eq_ok.mp h
    exact ⟨_, body, rfl⟩

end Phrase

namespace Tree

variable {f : Nat → Nat}

/-- What the tree of a wrapped text has in common with that of the text, whose root is `n`. -/
structure Wraps (f : Nat → Nat) (t t' : Tree) (n : Nat) : Prop where
  size : t.size = n + 1
  size' : t'.size = n + 4
  root : t.root = some n
  root' : t'.root = some (n + 3)
  kind : ∀ id < n, t'.kind id = t.kind id
  span : ∀ id < n, t'.span id = (t.span id).move f
  body : ∃ ids, t.kind n = .program ids ∧ t'.kind n = .blockStatement ids
  function : t'.kind (n + 1) = .functionExpression none [] n
  statement : t'.kind (n + 2) = .expressionStatement (n + 1)
  program : t'.kind (n + 3) = .program [n + 2]

/-- Nodes with a block, a function, a statement and a program after them, by the same nodes with
a program. -/
lemma wraps_link {ns : Array Node} {ids : List NodeId} {sourceType : SourceType}
    {locate : Span → Option SourceLocation} {program block function statement program' : Node}
    (kind : program.kind = .program ids) (kind₀ : block.kind = .blockStatement ids)
    (kind₁ : function.kind = .functionExpression none [] ns.size)
    (kind₂ : statement.kind = .expressionStatement (ns.size + 1))
    (kind₃ : program'.kind = .program [ns.size + 2]) :
    Wraps f (link ⟨ns.push program, none, sourceType⟩ ns.size)
      (link ⟨((((ns.map (Node.move f locate)).push block).push function).push statement).push
        program', none, sourceType⟩ (ns.size + 3)) ns.size := by
  set nodes := ((((ns.map (Node.move f locate)).push block).push function).push statement).push
    program' with hn
  have split : nodes = ns.map (Node.move f locate) ++ #[block, function, statement, program'] :=
    rfl
  have early {id : Nat} (h : id < ns.size) : nodes[id]? = ns[id]?.map (Node.move f locate) := by
    rw [split, Array.getElem?_append_left (by rwa [Array.size_map]), Array.getElem?_map]
  have late {k : Nat} {n : Node} (h : #[block, function, statement, program'][k]? = some n) :
      nodes[ns.size + k]? = some n := by
    rw [split, Array.getElem?_append_right (by rw [Array.size_map]; omega), Array.size_map,
      Nat.add_sub_cancel_left, h]
  have plain {id : Nat} (h : id < ns.size) : (ns.push program)[id]? = ns[id]? := by
    rw [Array.getElem?_push, if_neg (Nat.ne_of_lt h)]
  exact {
    size := by rw [size_link, size, Array.size_push]
    size' := by rw [size_link, size, split, Array.size_append, Array.size_map]; rfl
    root := rfl
    root' := rfl
    kind := by
      intro id hid
      rw [kind_link, kind_link]
      simp only [Tree.kind, early hid, plain hid]
      cases ns[id]? <;> rfl
    span := by
      intro id hid
      rw [span_link, span_link]
      simp only [Tree.span, early hid, plain hid, Array.getElem?_eq_getElem hid]
      rfl
    body := by
      refine ⟨ids, ?_, ?_⟩
      · rw [kind_link, kind_of_getElem? Array.getElem?_push_size, kind]
      · rw [kind_link, kind_of_getElem? (late (k := 0) (n := block) rfl), kind₀]
    function := by rw [kind_link, kind_of_getElem? (late (k := 1) (n := function) rfl), kind₁]
    statement := by rw [kind_link, kind_of_getElem? (late (k := 2) (n := statement) rfl), kind₂]
    program := by rw [kind_link, kind_of_getElem? (late (k := 3) (n := program') rfl), kind₃] }

lemma wraps_ofPhrase (table? table?' : Option LineTable) (sourceType : SourceType)
    (s s₀ s₁ s₂ s₃ : Span) (ps : List Phrase) :
    ∃ n, Wraps f (ofPhrase table? sourceType ⟨s, .program ps⟩)
      (ofPhrase table?' sourceType ⟨s₀, .program [⟨s₁, .expressionStatement
        ⟨s₂, .functionExpression none [] ⟨s₃, .blockStatement (ps.map (Phrase.move f))⟩⟩⟩]⟩) n := by
  set locate : Span → Option SourceLocation := fun s => table?.map (·.location s) with hl
  set locate' : Span → Option SourceLocation := fun s => table?'.map (·.location s) with hl'
  have moved : Phrase.numberAll locate' #[] (ps.map (Phrase.move f)) =
      ((Phrase.numberAll locate #[] ps).1.map (Node.move f locate'),
        (Phrase.numberAll locate #[] ps).2) := by
    simpa only [Array.map_empty] using Phrase.numberAll_move ps #[]
  have nodes : Phrase.number locate #[] ⟨s, .program ps⟩ = _ :=
    Phrase.number_eq #[] ⟨s, .program ps⟩
  have nodes' : Phrase.number locate' #[] _ = _ :=
    Phrase.number_function s₀ s₁ s₂ s₃ (ps.map (Phrase.move f))
  simp only [Phrase.children, Phrase.kind, NodeKind.children, NodeKind.fill, Phrase.span] at nodes
  simp only [moved, Array.size_map] at nodes'
  refine ⟨(Phrase.numberAll locate #[] ps).1.size, ?_⟩
  simp only [ofPhrase, ← hl, ← hl', nodes, nodes', Array.size_push, Array.size_map,
    Nat.add_sub_cancel]
  exact wraps_link rfl rfl rfl rfl rfl

theorem wraps_of_parse {text : String} {t : Tree} (h : Tree.parse text = .ok t) :
    ∃ t' n, Tree.parse (Config.standard.wrap text) = .ok t' ∧
      Wraps (Config.bodyOffset + ·) t t' n ∧
      ∀ id < n, Boundary text.toList (t.span id).start ∧
        Boundary text.toList (t.span id).stop := by
  obtain ⟨p, hp, rfl⟩ := Tree.parse_eq_ok.mp h
  obtain ⟨s, body, rfl⟩ := Phrase.parse_eq_program hp
  obtain ⟨s₀, s₁, s₂, s₃, wrapped⟩ :=
    Config.parse_wrap (f := (Config.bodyOffset + ·)) (fun _ _ h => Nat.add_le_add_left h _)
      (fun _ _ => rfl) hp
  obtain ⟨n, wraps⟩ := wraps_ofPhrase (f := (Config.bodyOffset + ·)) (some (.ofText text))
    (some (.ofText (Config.standard.wrap text))) .script s s₀ s₁ s₂ s₃ body
  refine ⟨_, n, Tree.parse_eq_ok.mpr ⟨_, wrapped, rfl⟩, wraps, ?_⟩
  -- Offsets may be moved in another way that agrees at the ends of characters only.
  classical
  let floor (n : Nat) : Nat := Nat.findGreatest (Boundary text.toList) n
  obtain ⟨s₀', s₁', s₂', s₃', wrapped'⟩ :=
    Config.parse_wrap (f := fun n => Config.bodyOffset + floor n)
      (fun _ _ h => Nat.add_le_add_left (Nat.findGreatest_mono_right _ h) _)
      (fun n hn => congrArg (Config.bodyOffset + ·) (Nat.findGreatest_eq hn)) hp
  obtain ⟨n', wraps'⟩ := wraps_ofPhrase (f := fun n => Config.bodyOffset + floor n)
    (some (.ofText text)) (some (.ofText (Config.standard.wrap text))) .script s s₀' s₁' s₂' s₃'
    body
  rw [← Except.ok.inj (wrapped.symm.trans wrapped')] at wraps'
  have same : n = n' := Nat.succ.inj (wraps.size.symm.trans wraps'.size)
  have boundary (k : Nat) (h : Config.bodyOffset + k = Config.bodyOffset + floor k) :
      Boundary text.toList k := by
    rw [Nat.add_left_cancel h]
    exact Nat.findGreatest_spec (Nat.zero_le k) ⟨[], List.nil_prefix, rfl⟩
  intro id hid
  have spans := (wraps.span id hid).symm.trans (wraps'.span id (same ▸ hid))
  exact ⟨boundary _ (congrArg Span.start spans), boundary _ (congrArg Span.stop spans)⟩

end Tree

end ScriptDebugger
