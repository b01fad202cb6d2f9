import ScriptDebugger.Proofs.Syntax.BalancedSpans
import ScriptDebugger.Proofs.Syntax.Lookahead

/-!
# Where functions are read

Every function in a program, declaration or expression, is read from the word `function`
on as a function expression would be (`Derives.founded`). So there is one derivation
for each, wherever in the program it stands.
-/

namespace ScriptDebugger

namespace Cursor

/-- A cursor comes to another one. -/
def Reaches (c c' : Cursor) : Prop := ∃ us, c.Consumes us c'

variable {c₀ c c' : Cursor}

lemma Reaches.refl (c : Cursor) : c.Reaches c := ⟨[], .nil⟩

@[grind ←] lemma Reaches.advance (h : c₀.Reaches c) : c₀.Reaches c.advance := by
  cases more : c.atEnd with
  | true => rwa [advance_of_atEnd more]
  | false =>
    obtain ⟨us, h⟩ := h
    exact ⟨us ++ [c.current], h.append (.token more)⟩

end Cursor

namespace Grammar

open Cursor Phrase

variable {d : Nat} {g : Goal} {y : Yield} {c₀ c c' c₁ : Cursor} {name : Option Phrase}
  {ps : List Phrase} {p b : Phrase}

@[grind →] lemma reaches_bindingIdentifier (h : bindingIdentifier c = .ok (p, c'))
    (on : c₀.Reaches c) : c₀.Reaches c' := by
  obtain ⟨-, -, -, rfl⟩ := exists_of_bindingIdentifier h
  exact on.advance

lemma reaches_propertyName (h : propertyName c = .ok (p, c')) (on : c₀.Reaches c) :
    c₀.Reaches c' := by
  obtain ⟨-, -, -, rfl⟩ := exists_of_propertyName h
  exact on.advance

@[grind →] lemma reaches_propertyKey {k : String} (h : propertyKey c = .ok (k, c'))
    (on : c₀.Reaches c) : c₀.Reaches c' := by
  obtain ⟨-, -, rfl⟩ := keyText?_of_propertyKey h
  exact on.advance

@[grind →] lemma reaches_endStatement (h : endStatement c = .ok c') (on : c₀.Reaches c) :
    c₀.Reaches c' := by
  rw [endStatement] at h
  split at h
  case isTrue =>
    cases h
    exact on.advance
  case isFalse =>
    split at h
    case isTrue =>
      cases h
      exact on
    case isFalse =>
      rw [refuseArrow] at h
      split at h <;> cases h

lemma reaches_ending {terminated : Bool}
    (stop : (if terminated then endStatement c else .ok c) = .ok c') (on : c₀.Reaches c) :
    c₀.Reaches c' := by
  cases terminated with
  | true => exact reaches_endStatement stop on
  | false =>
    cases stop
    exact on

@[grind →] lemma Derives.reaches (h : Derives d g c y c') (on : c₀.Reaches c) : c₀.Reaches c' := by
  induction h
  case accesses_dot name _ ih => exact ih (reaches_propertyName name on.advance)
  case statement_function name _ ih => exact ih (reaches_bindingIdentifier name on.advance)
  case declaration stop ih => exact reaches_ending stop (ih on.advance)
  case statement_break stop => exact reaches_endStatement stop on.advance
  case statement_continue stop => exact reaches_endStatement stop on.advance
  case statement_debugger stop => exact reaches_endStatement stop on.advance
  all_goals grind

/-- A function of this span and these parts is read from the word `function` on. -/
def ReadsFunction (c₀ : Cursor) (span : Span) (name : Option Phrase) (ps : List Phrase)
    (b : Phrase) : Prop :=
  ∃ d c c', c₀.Reaches c ∧ c.kind = .keyword .functionWord ∧
    Derives d .primary c (.one ⟨span, .functionExpression name ps b⟩) c'

/-- All functions in a phrase are read behind the cursor `c₀`. -/
def Founded (c₀ : Cursor) (p : Phrase) : Prop :=
  ∀ q, Within q p → ∀ name ps b, q.kind.asExpression = .functionExpression name ps b →
    ReadsFunction c₀ q.span name ps b

lemma Founded.of_function {span : Span} {kind : NodeKind Phrase}
    (own : ∀ name ps b, kind.asExpression = .functionExpression name ps b →
      ReadsFunction c₀ span name ps b)
    (children : ∀ p ∈ kind.children, Founded c₀ p) : Founded c₀ ⟨span, kind⟩ := by
  intro q within
  cases within with
  | self => exact own
  | child within mem => exact children _ mem q within

lemma Founded.node {span : Span} {kind : NodeKind Phrase} (plain : kind.isFunction = false)
    (children : ∀ p ∈ kind.children, Founded c₀ p) : Founded c₀ ⟨span, kind⟩ := by
  refine .of_function (fun name ps b h => ?_) children
  rw [NodeKind.isFunction_of_asExpression h] at plain
  cases plain

def Yield.Founded (c₀ : Cursor) : Yield → Prop
  | .one p => Grammar.Founded c₀ p
  | .many ps => ∀ p ∈ ps, Grammar.Founded c₀ p
  | .maybe o => ∀ p ∈ o.toList, Grammar.Founded c₀ p
  | .function ps b => ∀ p ∈ ps ++ [b], Grammar.Founded c₀ p

/-- What is known of the phrase that a goal continues. -/
def Goal.Founded (c₀ : Cursor) : Goal → Prop
  | .operatorTail _ p | .accesses _ p => Grammar.Founded c₀ p
  | _ => True

lemma Founded.leaf {span : Span} {kind : NodeKind Phrase} (plain : kind.isFunction = false)
    (none : kind.children = []) : Founded c₀ ⟨span, kind⟩ := by
  refine .node plain ?_
  rw [none]
  exact List.forall_mem_nil _

lemma forall_mem_pair {P : Phrase → Prop} {l r : Phrase} (left : P l) (right : P r) :
    ∀ p ∈ [l, r], P p :=
  List.forall_mem_cons.mpr ⟨left, List.forall_mem_singleton.mpr right⟩

lemma founded_node {l r : Phrase} (op : Infix) (left : Founded c₀ l) (right : Founded c₀ r) :
    Founded c₀ (op.node l r) := by
  cases op <;> exact .node rfl (forall_mem_pair left right)

lemma founded_bindingIdentifier (h : bindingIdentifier c = .ok (p, c')) : Founded c₀ p := by
  obtain ⟨_, -, rfl, -⟩ := exists_of_bindingIdentifier h
  exact .leaf rfl rfl

lemma founded_propertyName (h : propertyName c = .ok (p, c')) : Founded c₀ p := by
  obtain ⟨_, -, rfl, -⟩ := exists_of_propertyName h
  exact .leaf rfl rfl

/-- The function at the cursor. -/
lemma founded_function {span : Span} {kind : NodeKind Phrase}
    (function : kind.asExpression = .functionExpression name ps b)
    (read : ReadsFunction c₀ span name ps b)
    (children : ∀ p ∈ kind.children, Founded c₀ p) : Founded c₀ ⟨span, kind⟩ := by
  refine .of_function (fun name' ps' b' h => ?_) children
  cases function.symm.trans h
  exact read

lemma founded_declarator {s : Span} {n : Phrase} {o : Option Phrase}
    (name : bindingIdentifier c = .ok (n, c₁))
    (init : ∀ p ∈ o.toList, Founded c₀ p) : Founded c₀ ⟨s, .variableDeclarator n o⟩ :=
  .node rfl (List.forall_mem_cons.mpr ⟨founded_bindingIdentifier name, init⟩)

/-- Every function that is yielded is read from the word `function` on. -/
theorem Derives.founded (h : Derives d g c y c') (on : c₀.Reaches c) (left : g.Founded c₀) :
    y.Founded c₀ := by
  induction h with
  | assignment_none _ _ ih => exact ih on trivial
  | assignment _ _ _ _ first second =>
    exact .node rfl (forall_mem_pair (first on trivial) (second (by grind) trivial))
  | conditional_none _ _ ih => exact ih on trivial
  | conditional _ _ _ _ _ test consequent alternate =>
    exact .node rfl (List.forall_mem_cons.mpr ⟨test on trivial,
      forall_mem_pair (consequent (by grind) trivial) (alternate (by grind) trivial)⟩)
  | operators _ _ first tail => exact tail (by grind) (first on trivial)
  | operatorTail_none _ => exact left
  | operatorTail_weaker _ _ => exact left
  | operatorTail _ _ _ _ right tail =>
    exact tail (by grind) (founded_node _ left (right (by grind) trivial))
  | unary _ _ argument =>
    exact .node rfl (List.forall_mem_singleton.mpr (argument on.advance trivial))
  | unary_update _ _ _ _ argument =>
    exact .node rfl (List.forall_mem_singleton.mpr (argument on.advance trivial))
  | unary_postfixed _ _ _ ih => exact ih on trivial
  | postfixed_none _ _ _ head chain => exact chain (by grind) (head on trivial)
  | postfixed _ _ _ _ _ head chain =>
    exact .node rfl (List.forall_mem_singleton.mpr (chain (by grind) (head on trivial)))
  | head_construction _ _ ih => exact ih on trivial
  | head_primary _ _ ih => exact ih on trivial
  | accesses_none _ _ _ => exact left
  | accesses_call _ _ _ _ arguments chain =>
    exact chain (by grind)
      (.node rfl (List.forall_mem_cons.mpr ⟨left, arguments on.advance trivial⟩))
  | accesses_dot _ _ name _ chain =>
    exact chain (reaches_propertyName name on.advance)
      (.node rfl (forall_mem_pair left (founded_propertyName name)))
  | accesses_bracket _ _ _ _ _ _ key chain =>
    exact chain (by grind) (.node rfl (forall_mem_pair left (key on.advance trivial)))
  | construction_none _ _ _ head chain =>
    exact .node rfl (List.forall_mem_singleton.mpr (chain (by grind) (head on.advance trivial)))
  | construction _ _ _ _ _ head chain arguments =>
    exact .node rfl (List.forall_mem_cons.mpr
      ⟨chain (by grind) (head on.advance trivial), arguments (by grind) trivial⟩)
  | elements_nil _ => exact List.forall_mem_nil _
  | elements_last _ _ _ first => exact List.forall_mem_singleton.mpr (first on trivial)
  | elements_cons _ _ _ _ first rest =>
    exact List.forall_mem_cons.mpr ⟨first on trivial, rest (by grind) trivial⟩
  | properties_nil _ => exact List.forall_mem_nil _
  | properties_last _ _ _ _ _ value =>
    have value := value (by grind) trivial
    exact List.forall_mem_singleton.mpr (.node rfl (List.forall_mem_singleton.mpr value))
  | properties_cons _ _ _ _ _ _ value rest =>
    have value := value (by grind) trivial
    exact List.forall_mem_cons.mpr
      ⟨.node rfl (List.forall_mem_singleton.mpr value), rest (by grind) trivial⟩
  | primary_literal _ => exact .leaf rfl rfl
  | primary_identifier _ _ => exact .leaf rfl rfl
  | primary_paren _ _ _ _ inner => exact inner on.advance trivial
  | primary_array _ _ _ items => exact .node rfl (items on.advance trivial)
  | primary_object _ _ _ items => exact .node rfl (items on.advance trivial)
  | primary_function token anonymous rest ih =>
    exact founded_function rfl ⟨_, _, _, on, token, .primary_function token anonymous rest⟩
      (ih on.advance trivial)
  | primary_namedFunction token named rest ih =>
    exact founded_function rfl ⟨_, _, _, on, token, .primary_namedFunction token named rest⟩
      (List.forall_mem_cons.mpr ⟨.leaf rfl rfl, ih on.advance.advance trivial⟩)
  | parameters_nil _ => exact List.forall_mem_nil _
  | parameters_last _ first _ =>
    exact List.forall_mem_singleton.mpr (founded_bindingIdentifier first)
  | parameters_cons _ first _ _ rest =>
    exact List.forall_mem_cons.mpr ⟨founded_bindingIdentifier first, rest (by grind) trivial⟩
  | functionRest _ _ _ _ params body =>
    exact List.forall_mem_append.mpr
      ⟨params on.advance trivial, List.forall_mem_singleton.mpr (body (by grind) trivial)⟩
  | block _ _ body => exact .node rfl (body on.advance trivial)
  | blockBody_nil _ => exact List.forall_mem_nil _
  | blockBody_cons _ _ _ _ first rest =>
    exact List.forall_mem_cons.mpr ⟨first on trivial, rest (by grind) trivial⟩
  | initializer_none _ => exact List.forall_mem_nil _
  | initializer _ _ value => exact List.forall_mem_singleton.mpr (value on.advance trivial)
  | declarators_last name _ _ init =>
    exact List.forall_mem_singleton.mpr (founded_declarator name (init (by grind) trivial))
  | declarators_cons name _ _ _ init rest =>
    exact List.forall_mem_cons.mpr
      ⟨founded_declarator name (init (by grind) trivial), rest (by grind) trivial⟩
  | declaration _ _ names => exact .node rfl (names on.advance trivial)
  | parenthesized _ _ _ inner => exact inner on.advance trivial
  | optional_none _ => exact List.forall_mem_nil _
  | optional _ _ inner => exact List.forall_mem_singleton.mpr (inner on trivial)
  | forInit_declaration _ _ rest => exact List.forall_mem_singleton.mpr (rest on trivial)
  | forInit _ _ rest => exact rest on trivial
  | forStatement _ _ _ _ _ _ _ _ _ init test update body =>
    have init := init (by grind) trivial
    have test := test (by grind) trivial
    have update := update (by grind) trivial
    have body : Grammar.Founded c₀ _ := body (by grind) trivial
    exact .node rfl (List.forall_mem_append.mpr ⟨List.forall_mem_append.mpr
      ⟨List.forall_mem_append.mpr ⟨init, test⟩, update⟩, List.forall_mem_singleton.mpr body⟩)
  | result_none _ => exact List.forall_mem_nil _
  | result _ _ rest => exact rest on trivial
  | statement_block _ _ rest => exact rest on trivial
  | statement_declaration _ _ rest => exact rest on trivial
  | statement_function token name rest ih =>
    -- from the same tokens an expression would be read
    obtain ⟨_, named, rfl, rfl⟩ := exists_of_bindingIdentifier name
    exact founded_function rfl ⟨_, _, _, on, token, .primary_namedFunction token named rest⟩
      (List.forall_mem_cons.mpr ⟨.leaf rfl rfl, ih on.advance.advance trivial⟩)
  | statement_if _ _ _ _ test consequent =>
    exact .node rfl (forall_mem_pair (test on.advance trivial) (consequent (by grind) trivial))
  | statement_ifElse _ _ _ _ _ test consequent alternate =>
    exact .node rfl (List.forall_mem_cons.mpr ⟨test on.advance trivial,
      forall_mem_pair (consequent (by grind) trivial) (alternate (by grind) trivial)⟩)
  | statement_for _ _ rest => exact rest on trivial
  | statement_while _ _ _ test body =>
    exact .node rfl (forall_mem_pair (test on.advance trivial) (body (by grind) trivial))
  | statement_return _ _ _ _ argument => exact .node rfl (argument on.advance trivial)
  | statement_throw _ _ _ _ argument =>
    exact .node rfl (List.forall_mem_singleton.mpr (argument on.advance trivial))
  | statement_break _ _ _ => exact .leaf rfl rfl
  | statement_continue _ _ _ => exact .leaf rfl rfl
  | statement_debugger _ _ => exact .leaf rfl rfl
  | statement_empty _ => exact .leaf rfl rfl
  | statement_expression _ _ _ expression =>
    exact .node rfl (List.forall_mem_singleton.mpr (expression on trivial))
  | programBody_nil _ => exact List.forall_mem_nil _
  | programBody_cons _ _ _ first rest =>
    exact List.forall_mem_cons.mpr ⟨first on trivial, rest (by grind) trivial⟩

end Grammar
end ScriptDebugger
