import ScriptDebugger.Proofs.Debugger.LoneFunction
import ScriptDebugger.Proofs.Debugger.WrappedTree

/-!
# The function of a wrapped text

With room for one activation, a wrapped text evaluates to the function around
the text, in two steps. So every text that parses can be called in its wrapped
form, and the tree of that form has the nodes of the text where the text has
them (`parse_wrap_of_parse`).
-/

namespace ScriptDebugger

open Machine

variable {f : Nat → Nat} {t : Tree} {n : NodeId}

lemma Tree.Wraps.soleExpression {t' : Tree} (h : t.Wraps f t' n) : t'.SoleExpression (n + 1) where
  root := by rw [h.root', h.size']; rfl
  statement := ⟨n + 2, by rw [h.size']; exact h.program, h.statement⟩

namespace Interpreter

/-- The function around a text that is evaluated in a new scope for the program. -/
def wrapper (i : Interpreter) (n : NodeId) : Closure :=
  (i.setting fun _ => false).closure (n + 1) none [] n i.store.scopes.size

/-- The interpreter after the function around a text has been evaluated. -/
def withWrapper (i : Interpreter) (n : NodeId) : Interpreter :=
  { i with store := ((i.store.newScope (some globalScope)).1.newClosure (i.wrapper n)).1 }

lemma loneFunction_of_wraps (i : Interpreter) (wraps : t.Wraps f i.tree n)
    (room : 0 < i.maxDepth) (fuel : Nat) :
    i.loneFunction (fuel + 2) =
      some (.ok ⟨i.withWrapper n, .function i.store.closures.size, ""⟩) :=
  i.loneFunction_of_sole wraps.soleExpression wraps.function room fuel

/-- The callable that the function around a text is. -/
def wrapped (t' : Tree) (text : String) (maxDepth : Nat) (n : NodeId) : Callable :=
  ⟨(ofTree t' text true maxDepth).withWrapper n, .function Store.initial.closures.size, ""⟩

lemma callableOfText_of_wraps {t' : Tree} {text : String} {maxDepth : Nat}
    (parsed : Tree.parse text = .ok t') (wraps : t.Wraps f t' n) (room : 0 < maxDepth)
    (fuel : Nat) :
    callableOfText (fuel + 2) maxDepth text = some (.ok (wrapped t' text maxDepth n)) := by
  rw [callableOfText, parsed]
  exact loneFunction_of_wraps (ofTree t' text true maxDepth) wraps room fuel

/-- A text that parses does so in its wrapped form, too. All nodes of the text but its program are
nodes there, with the same numbers, kinds and children, and their spans lie behind the opening and
a line feed. The wrapped form is a function around the statements of the text, and with room for
one activation it evaluates to that function. -/
theorem parse_wrap_of_parse (text : String) (t : Tree) (parsed : Tree.parse text = .ok t) :
    ∃ (t' : Tree) (statement function body : NodeId) (ids : List NodeId),
      Tree.parse (Config.standard.wrap text) = .ok t' ∧ t'.size = t.size + 3 ∧
      (∀ k, k + 1 < t.size → t'.kind k = t.kind k ∧ t'.children k = t.children k ∧
        t'.span k = ⟨(t.span k).start + (Config.standard.openingLength + 1),
          (t.span k).stop + (Config.standard.openingLength + 1)⟩) ∧
      (t.root = some (t.size - 1) ∧ t.kind (t.size - 1) = .program ids) ∧
      (t'.root = some (t'.size - 1) ∧ t'.kind (t'.size - 1) = .program [statement]) ∧
      t'.kind statement = .expressionStatement function ∧
      t'.kind function = .functionExpression none [] body ∧
      t'.kind body = .blockStatement ids ∧
      ∀ maxDepth ≥ 1, ∃ least, ∀ fuel ≥ least, ∃ c,
        callableOfText fuel maxDepth (Config.standard.wrap text) = some (.ok c) ∧
        c.closure.body = body ∧ c.closure.params = [] := by
  obtain ⟨t', n, parsed', wraps, -⟩ := Tree.wraps_of_parse parsed
  obtain ⟨ids, program, block⟩ := wraps.body
  have last : t.size - 1 = n := by rw [wraps.size, Nat.add_sub_cancel]
  refine ⟨t', n + 2, n + 1, n, ids, parsed', ?_, fun k hk => ?_, ?_, ?_, wraps.statement,
    wraps.function, block, fun maxDepth room => ⟨2, fun fuel least => ?_⟩⟩
  · rw [wraps.size, wraps.size']
  · have before : k < n := by omega
    refine ⟨wraps.kind k before, ?_, ?_⟩
    · rw [Tree.children, Tree.children, wraps.kind k before]
    · rw [wraps.span k before, Span.move, Config.bodyOffset, Nat.add_comm,
        Nat.add_comm _ (Span.stop _)]
  · rw [last]
    exact ⟨wraps.root, program⟩
  · rw [wraps.size', Nat.add_sub_cancel (n := n + 3) (m := 1)]
    exact ⟨wraps.root', wraps.program⟩
  · obtain ⟨k, rfl⟩ := Nat.exists_eq_add_of_le' least
    exact ⟨_, callableOfText_of_wraps parsed' wraps room k, rfl, rfl⟩

/-- A text that ends in a comment and leaves its semicolon out. -/
theorem parse_wrap_of_parse_comment :
    ∃ (t t' : Tree) (body : NodeId) (ids : List NodeId) (c : Callable) (fuel : Nat),
      Tree.parse "f(1) // no semicolon" = .ok t ∧ 2 + 1 < t.size ∧
      Tree.parse (Config.standard.wrap "f(1) // no semicolon") = .ok t' ∧
      t'.kind 2 = t.kind 2 ∧ t.span 2 = ⟨0, 4⟩ ∧ t'.span 2 = ⟨14, 18⟩ ∧
      t.kind (t.size - 1) = .program ids ∧ t'.kind body = .blockStatement ids ∧
      callableOfText fuel 1 (Config.standard.wrap "f(1) // no semicolon") = some (.ok c) ∧
      c.closure.body = body := by
  let text := "f(1) // no semicolon"
  have parses : (Tree.parse text).toOption.isSome = true := by decide +kernel
  have spans : ((Tree.parse text).toOption.map fun t => (t.size, t.span 2)) =
      some (5, ⟨0, 4⟩) := by decide +kernel
  cases parsed : Tree.parse text with
  | error e => simp [parsed, Except.toOption] at parses
  | ok t =>
    rw [parsed] at spans
    obtain ⟨size, span⟩ := Prod.mk.inj (Option.some.inj spans)
    obtain ⟨t', statement, function, body, ids, parsed', -, nodes, ⟨-, program⟩, -, -, -, block,
      callable⟩ := parse_wrap_of_parse text t parsed
    have inner : 2 + 1 < t.size := by rw [size]; decide
    obtain ⟨kind, -, moved⟩ := nodes 2 inner
    obtain ⟨least, callable⟩ := callable 1 (Nat.le_refl 1)
    obtain ⟨c, hc, hbody, -⟩ := callable least (Nat.le_refl least)
    refine ⟨t, t', body, ids, c, least, rfl, inner, parsed', kind, span, ?_, program, block, hc,
      hbody⟩
    rw [moved, span]
    decide

end Interpreter

end ScriptDebugger
