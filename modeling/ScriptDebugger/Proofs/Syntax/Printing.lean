import ScriptDebugger.Proofs.Syntax.Allocation
import ScriptDebugger.Proofs.Syntax.Operand

/-!
# Printed expressions are parsed back

The printed text of an expression can stand wherever an operand of its level is
asked for, and in parentheses anywhere (`Expression.stands`), by induction on the
expression with a lemma for each form. So a parser reads a printed expression as
the phrase of the expression, whatever operators it is made of
(`Expression.parse_print`).
-/

namespace ScriptDebugger

namespace Grammar

open Cursor

variable {c c' : Cursor} {p : Phrase} {n m least level : Nat} {ks ls : List TokenKind}
  {q r : Phrase}

/-- The tokens can stand where an operand of the level is asked for, and are read as the phrase. -/
def Stands (n : Nat) (ks : List TokenKind) (q : Phrase) : Prop :=
  ∀ c c', Passes ks c c' → ∃ p, p.bare = q ∧ Operand n c p c'

lemma Stands.loosen (h : Stands n ks q) (le : m ≤ n) : Stands m ks q := by
  intro c c' passes
  obtain ⟨p, hp, reads⟩ := h c c' passes
  exact ⟨p, hp, reads.loosen le⟩

/-- Anything can stand in parentheses. -/
lemma Stands.paren (h : Stands n ks q) :
    Stands 12 (.punct .leftParen :: (ks ++ [.punct .rightParen])) q := by
  intro c c' passes
  simp only [passes_cons, passes_append, passes_nil] at passes
  obtain ⟨token, -, c₁, inner, close, -, rfl⟩ := passes
  obtain ⟨p, hp, reads⟩ := h _ _ inner
  exact ⟨p, hp, reads.paren token close⟩

lemma Stands.enclosed (h : Stands level ks q) (le : m ≤ least) (top : m ≤ 12) :
    Stands m (enclosed least level ks) q := by
  unfold ScriptDebugger.enclosed
  split
  case isTrue => exact h.paren.loosen top
  case isFalse => exact h.loosen (by omega)

lemma stands_literal (l : Literal) : Stands 12 [l.token] (.of (.literal l)) := by
  intro c c' passes
  simp only [passes_cons, passes_nil] at passes
  obtain ⟨token, -, rfl⟩ := passes
  refine ⟨⟨c.span, .literal l⟩, Phrase.bare_mk _ _, .of_primary (by omega) ?_⟩
  intro _
  have value : literal? c.kind = some l := by rw [token, literal?_token]
  exact ⟨1, .primary_literal value⟩

lemma stands_identifier (name : String) : Stands 12 [.ident name] (.of (.identifier name)) := by
  intro c c' passes
  simp only [passes_cons, passes_nil] at passes
  obtain ⟨token, -, rfl⟩ := passes
  refine ⟨⟨c.span, .identifier name⟩, Phrase.bare_mk _ _, .of_primary (by omega) ?_⟩
  intro ends
  exact ⟨1, .primary_identifier token (not_at?_of_goesOn (Nat.lt_of_le_of_lt ends (by decide)))⟩

lemma stands_member {word : TokenKind} {name : String} (h : Stands 11 ks q)
    (hw : word = .ident name ∨ word = .reserved name) :
    Stands 11 (ks ++ [.punct .dot, word])
      (.of (.memberExpression q (.of (.identifier name)) false)) := by
  intro c c' passes
  simp only [passes_append, passes_cons, passes_nil] at passes
  obtain ⟨c₁, object, dot, -, token, -, rfl⟩ := passes
  obtain ⟨p, rfl, reads⟩ := h _ _ object
  let key : Phrase := ⟨c₁.advance.span, .identifier name⟩
  have bare : key.bare = .of (.identifier name) := Phrase.bare_mk _ _
  refine ⟨⟨c₁.advance.advance.spanFrom p.span, .memberExpression p key false⟩, ?_,
    reads.access (goesOn_of_kind dot).le ?_⟩
  · rw [← bare]
    exact Phrase.bare_mk _ _
  rintro a c'' ⟨d, chain⟩
  have call : (true && c₁.at? .leftParen) = false := not_at?_of_kind dot (by decide)
  have found : propertyName c₁.advance = .ok (key, c₁.advance.advance) := by
    rcases hw with rfl | rfl <;> simp only [propertyName, token] <;> rfl
  exact ⟨d + 1, .accesses_dot call (at?_of_kind dot) found chain⟩

lemma stands_element (h : Stands 11 ks q) (key : Stands n ls r) :
    Stands 11 (ks ++ .punct .leftBracket :: (ls ++ [.punct .rightBracket]))
      (.of (.memberExpression q r true)) := by
  intro c c' passes
  simp only [passes_append, passes_cons, passes_nil] at passes
  obtain ⟨c₁, object, bracket, -, c₂, inner, close, -, rfl⟩ := passes
  obtain ⟨p, rfl, reads⟩ := h _ _ object
  obtain ⟨x, rfl, keyReads⟩ := key _ _ inner
  refine ⟨⟨c₂.advance.spanFrom p.span, .memberExpression p x true⟩, Phrase.bare_mk _ _,
    reads.access (goesOn_of_kind bracket).le ?_⟩
  intro a c'' chain
  obtain ⟨d, key, chain⟩ := (keyReads.findsAssignment (goesOn_of_kind close)).and chain
  have call : (true && c₁.at? .leftParen) = false := not_at?_of_kind bracket (by decide)
  have dot : c₁.at? .dot = false := not_at?_of_kind bracket (by decide)
  exact ⟨d + 1, .accesses_bracket call dot (at?_of_kind bracket) key (at?_of_kind close) chain⟩

lemma checkTarget_of_bare {p : Phrase} (h : checkTarget p.bare = .ok ()) :
    checkTarget p = .ok () := by
  obtain ⟨span, kind⟩ := p
  rw [Phrase.bare_mk] at h
  cases kind <;> first | rfl | cases h

lemma stands_unary {op : UnaryOp} (h : Stands 9 ks q) :
    Stands 9 (op.token :: ks) (.of (.unaryExpression op q)) := by
  intro c c' passes
  simp only [passes_cons] at passes
  obtain ⟨token, -, operand⟩ := passes
  obtain ⟨p, rfl, reads⟩ := h _ _ operand
  refine ⟨⟨c.span.merge p.span, .unaryExpression op p⟩, Phrase.bare_mk _ _,
    .unary le_rfl (by omega) ?_⟩
  intro ends
  obtain ⟨d, argument⟩ := reads.findsUnary (by omega) ends
  have sign : unaryOp? c.kind = some op := by rw [token, unaryOp?_token]
  exact ⟨d + 1, .unary sign argument⟩

lemma stands_updateBefore {op : UpdateOp} (h : Stands 9 ks q) (target : checkTarget q = .ok ()) :
    Stands 9 (op.token :: ks) (.of (.updateExpression op true q)) := by
  intro c c' passes
  simp only [passes_cons] at passes
  obtain ⟨token, -, operand⟩ := passes
  obtain ⟨p, rfl, reads⟩ := h _ _ operand
  refine ⟨⟨c.span.merge p.span, .updateExpression op true p⟩, Phrase.bare_mk _ _,
    .unary le_rfl (by omega) ?_⟩
  intro ends
  obtain ⟨d, argument⟩ := reads.findsUnary (by omega) ends
  have notUnary : unaryOp? c.kind = none := by
    rw [token]
    cases op <;> rfl
  have sign : updateOp? c.kind = some op := by rw [token, updateOp?_token]
  exact ⟨d + 1, .unary_update notUnary sign argument (checkTarget_of_bare target)⟩

lemma stands_updateBehind {op : UpdateOp} (h : Stands 11 ks q) (target : checkTarget q = .ok ()) :
    Stands 10 (ks ++ [op.token]) (.of (.updateExpression op false q)) := by
  intro c c' passes
  simp only [passes_append, passes_cons, passes_nil] at passes
  obtain ⟨c₁, operand, token, sameLine, rfl⟩ := passes
  obtain ⟨p, rfl, reads⟩ := h _ _ operand
  have sign : updateOp? c₁.kind = some op := by rw [token, updateOp?_token]
  have goesOn := goesOn_of_updateOp? sign
  refine ⟨⟨p.span.merge c₁.span, .updateExpression op false p⟩, Phrase.bare_mk _ _,
    .unary (by omega) le_rfl ?_⟩
  intro _
  obtain ⟨f, c₀, head, chain⟩ := reads.findsPrimary le_rfl (by omega) (accesses_none (by omega))
  apply unary_of_primary head chain
  intro d head chain
  exact .postfixed head chain sameLine sign (checkTarget_of_bare target)

lemma Infix.level_pos (op : Infix) : 1 ≤ op.level := by
  rcases op with op | op <;> cases op <;> decide

lemma Infix.level_le (op : Infix) : op.level ≤ 6 := by
  rcases op with op | op <;> cases op <;> decide

lemma bare_node (op : Infix) (l r : Phrase) :
    (op.node l r).bare = .of (op.node l.bare r.bare).kind := by
  cases op <;> exact Phrase.bare_mk _ _

lemma stands_joined {op : Infix} (left : Stands (op.level + 2) ks q)
    (right : Stands (op.level + 3) ls r) :
    Stands (op.level + 2) (ks ++ op.token :: ls) (.of (op.node q r).kind) := by
  intro c c' passes
  simp only [passes_append, passes_cons] at passes
  obtain ⟨c₁, first, token, -, second⟩ := passes
  obtain ⟨l, rfl, leftReads⟩ := left _ _ first
  obtain ⟨r, rfl, rightReads⟩ := right _ _ second
  have := op.level_pos
  have := op.level_le
  have sign : infix? c₁.kind = some op := by rw [token, infix?_token]
  have goesOn := goesOn_of_infix? sign
  refine ⟨op.node l r, bare_node op l r, .joined (by omega) (by omega) ?_⟩
  intro ends m y c'' hm tail
  apply leftReads.findsOperators (by omega) hm (by omega)
  have right : Finds (.operators (op.level + 1)) c₁.advance (.one r) c' :=
    rightReads.findsOperators (by omega) (by omega) (by omega) (operatorTail_ends (by omega))
  obtain ⟨d, right, tail⟩ := right.and tail
  exact ⟨d + 1, .operatorTail sign (by omega) right tail⟩

lemma stands_conditional {ms : List TokenKind} {u : Phrase} (test : Stands 3 ks q)
    (consequent : Stands m ls r) (alternate : Stands n ms u) :
    Stands 2 (ks ++ .punct .question :: (ls ++ .punct .colon :: ms))
      (.of (.conditionalExpression q r u)) := by
  intro c c' passes
  simp only [passes_append, passes_cons] at passes
  obtain ⟨c₁, first, question, -, c₂, second, colon, -, third⟩ := passes
  obtain ⟨t, rfl, testReads⟩ := test _ _ first
  obtain ⟨a, rfl, consequentReads⟩ := consequent _ _ second
  obtain ⟨b, rfl, alternateReads⟩ := alternate _ _ third
  refine ⟨⟨t.span.merge b.span, .conditionalExpression t a b⟩, Phrase.bare_mk _ _,
    .whole le_rfl ?_⟩
  intro ends
  have goesOn : c₁.kind.goesOn = 2 := goesOn_of_kind question
  have test : Finds (.operators 1) c (.one t) c₁ :=
    testReads.findsOperators (by omega) (by omega) (by omega) (operatorTail_ends (by omega))
  have consequent : Finds .assignment c₁.advance (.one a) c₂ :=
    consequentReads.findsAssignment (goesOn_of_kind colon)
  obtain ⟨d, consequent, alternate⟩ := consequent.and (alternateReads.findsAssignment ends)
  obtain ⟨d', test⟩ := test
  have left : d ≤ max d d' := le_max_left d d'
  exact ⟨max d d' + 2, .assignment_none
    (.conditional (test.mono (le_max_right d d')) (at?_of_kind question) (consequent.mono left)
      (at?_of_kind colon) (alternate.mono left))
    (assignOp?_of_goesOn ends)⟩

lemma stands_assignment {sign : AssignSign} (target : checkTarget q = .ok ())
    (left : Stands 11 ks q) (right : Stands n ls r) :
    Stands 1 (ks ++ sign.token :: ls) (.of (.assignmentExpression sign.op q r)) := by
  intro c c' passes
  simp only [passes_append, passes_cons] at passes
  obtain ⟨c₁, first, token, -, second⟩ := passes
  obtain ⟨l, rfl, leftReads⟩ := left _ _ first
  obtain ⟨r, rfl, rightReads⟩ := right _ _ second
  refine ⟨⟨l.span.merge r.span, .assignmentExpression sign.op l r⟩, Phrase.bare_mk _ _,
    .whole (by omega) ?_⟩
  intro ends
  have op : assignOp? c₁.kind = some sign.op := by rw [token, assignOp?_token]
  have left : Finds .conditional c (.one l) c₁ :=
    leftReads.findsConditional (by omega) (goesOn_of_assignOp? op).le
  obtain ⟨d, left, right⟩ := left.and (rightReads.findsAssignment ends)
  exact ⟨d + 1, .assignment left op (checkTarget_of_bare target) right⟩

/-- The tokens can stand before the closing bracket, and are read as the phrases. -/
def Listed (closer : Punct) (ks : List TokenKind) (qs : List Phrase) : Prop :=
  ∀ c c', Passes ks c c' → c'.kind = .punct closer →
    ∃ ps : List Phrase, ps.map Phrase.bare = qs ∧ Finds (.elements closer) c (.many ps) c'

variable {closer : Punct} {qs : List Phrase}

lemma listed_nil : Listed closer [] [] := by
  intro c c' passes close
  rw [passes_nil] at passes
  subst passes
  exact ⟨[], rfl, 1, .elements_nil (at?_of_kind close)⟩

section Closers

variable (closes : closer = .rightParen ∨ closer = .rightBracket)
include closes

lemma listed_last (h : Stands n ks q) : Listed closer ks [q] := by
  intro c c' passes close
  obtain ⟨p, rfl, reads⟩ := h _ _ passes
  obtain ⟨d, first⟩ := reads.findsAssignment (goesOn_of_closer closes close)
  exact ⟨[p], rfl, d + 1,
    .elements_last (first.not_at_closer closes rfl) first (not_at_comma_of_closer closes close)⟩

lemma listed_cons (h : Stands n ks q) (rest : Listed closer ls qs) :
    Listed closer (ks ++ .punct .comma :: ls) (q :: qs) := by
  intro c c' passes close
  simp only [passes_append, passes_cons] at passes
  obtain ⟨c₁, first, comma, -, others⟩ := passes
  obtain ⟨p, rfl, reads⟩ := h _ _ first
  obtain ⟨ps, rfl, found⟩ := rest _ _ others close
  obtain ⟨d, first, rest⟩ := (reads.findsAssignment (goesOn_of_kind comma)).and found
  exact ⟨p :: ps, rfl, d + 1,
    .elements_cons (first.not_at_closer closes rfl) first (at?_of_kind comma) rest⟩

end Closers

lemma stands_array (h : Listed .rightBracket ks qs) :
    Stands 12 (.punct .leftBracket :: (ks ++ [.punct .rightBracket]))
      (.of (.arrayExpression qs)) := by
  intro c c' passes
  simp only [passes_cons, passes_append, passes_nil] at passes
  obtain ⟨token, -, c₁, items, close, -, rfl⟩ := passes
  obtain ⟨ps, rfl, d, found⟩ := h _ _ items close
  refine ⟨⟨c₁.advance.spanFrom c.span, .arrayExpression ps⟩, Phrase.bare_mk _ _,
    .of_primary (by omega) ?_⟩
  intro _
  exact ⟨d + 1, .primary_array token found (at?_of_kind close)⟩

lemma stands_call (callee : Stands 11 ks q) (h : Listed .rightParen ls qs) :
    Stands 11 (ks ++ .punct .leftParen :: (ls ++ [.punct .rightParen]))
      (.of (.callExpression q qs)) := by
  intro c c' passes
  simp only [passes_append, passes_cons, passes_nil] at passes
  obtain ⟨c₁, first, paren, -, c₂, arguments, close, -, rfl⟩ := passes
  obtain ⟨f, rfl, reads⟩ := callee _ _ first
  obtain ⟨ps, rfl, found⟩ := h _ _ arguments close
  refine ⟨⟨c₂.advance.spanFrom f.span, .callExpression f ps⟩, Phrase.bare_mk _ _,
    reads.access (goesOn_of_kind paren).le ?_⟩
  intro a c'' chain
  obtain ⟨d, found, chain⟩ := found.and chain
  exact ⟨d + 1, .accesses_call (at?_of_kind paren) found (at?_of_kind close) chain⟩

end Grammar

open Cursor Grammar

lemma Reference.le_level (target : Reference) : 11 ≤ (Expression.reference target).level := by
  cases target <;> simp [Expression.level]

lemma Reference.checkTarget_phrase (target : Reference) : checkTarget target.phrase = .ok () := by
  cases target <;> rfl

variable (s : Spelling)

mutual

/-- The printed text of an expression can stand wherever its level will do. -/
theorem Expression.stands : ∀ e : Expression, Stands e.level (e.print s) e.phrase
  | .reference target => target.stands
  | .literal value => stands_literal value
  | .array items => stands_array (listed_printAll .rightBracket (.inr rfl) items)
  | .unary op argument => stands_unary (argument.stands.enclosed (by omega) (by omega))
  | .update op true target =>
    stands_updateBefore (target.stands.loosen (by have := target.le_level; omega))
      target.checkTarget_phrase
  | .update op false target =>
    stands_updateBehind (target.stands.loosen target.le_level) target.checkTarget_phrase
  | .joined op left right =>
    stands_joined (left.stands.enclosed le_rfl (by have := op.level_le; omega))
      (right.stands.enclosed le_rfl (by have := op.level_le; omega))
  | .assignment sign target value =>
    stands_assignment target.checkTarget_phrase (target.stands.loosen target.le_level)
      value.stands
  | .conditional test consequent alternate =>
    stands_conditional (test.stands.enclosed le_rfl (by omega))
      (consequent.stands.enclosed (Nat.zero_le _) (by omega))
      (alternate.stands.enclosed (Nat.zero_le _) (by omega))
  | .call callee arguments =>
    stands_call (callee.stands.enclosed le_rfl (by omega))
      (listed_printAll .rightParen (.inl rfl) arguments)

theorem Reference.stands : ∀ target : Reference,
    Stands (Expression.reference target).level (target.print s) target.phrase
  | .identifier name => stands_identifier name
  | .member object name =>
    stands_member (object.stands.enclosed le_rfl (by omega)) (s.word_eq name)
  | .element object key => stands_element (object.stands.enclosed le_rfl (by omega)) key.stands

theorem listed_printAll (closer : Punct) (closes : closer = .rightParen ∨ closer = .rightBracket) :
    ∀ es : List Expression, Listed closer (printAll s es) (phrases es)
  | [] => listed_nil
  | [e] => listed_last closes e.stands
  | e :: e' :: es => listed_cons closes e.stands (listed_printAll closer closes (e' :: es))

end

/-- A printed expression before the end of input is read whole, and as the phrase of the expression
but for its place in the text. -/
lemma Expression.assignment_print (e : Expression) {ts : List Token} {last : Token} {d : Nat}
    (stop : Nat) (kinds : ts.map Token.kind = e.print s)
    (sameLine : ∀ t ∈ ts, t.newlineBefore = false) (ends : last.kind = .endOfInput)
    (deep : depthFor ts.length ≤ d) :
    ∃ p stop', Grammar.assignment d ⟨ts ++ [last], stop⟩ = .ok (p, ⟨[last], stop'⟩) ∧
      p.bare = e.phrase := by
  have inside : ∀ t ∈ ts, t.kind.isEndOfInput = false := by
    intro t ht
    apply e.inside_print s
    rw [← kinds]
    exact List.mem_map_of_mem ht
  obtain ⟨stop', passes⟩ : ∃ stop', Passes (e.print s) ⟨ts ++ [last], stop⟩ ⟨[last], stop'⟩ := by
    rw [← kinds]
    exact passes_of_tokens sameLine inside stop
  obtain ⟨p, hp, reads⟩ := e.stands s _ _ passes
  have goesOn : (Cursor.mk [last] stop').kind.goesOn = 0 := congrArg TokenKind.goesOn ends
  obtain ⟨d', found⟩ := reads.findsAssignment goesOn
  refine ⟨p, stop', ?_, hp⟩
  have enough : 16 * ((Cursor.mk (ts ++ [last]) stop).left - (Cursor.mk [last] stop').left) +
      Goal.assignment.weight ≤ d := by
    simp only [Cursor.left, List.length_append, List.length_singleton, Goal.weight]
    simp only [depthFor] at deep
    omega
  simpa [Goal.run, yields_eq_ok] using run_of_derives (found.within (.inr enough))

/-- A parser that stands at a printed expression before the end of input parses it back: all its
tokens are consumed, and the node that it gives is that of the phrase of the expression, with all
that is inside it, but for its place in the text. -/
theorem Expression.parse_print (e : Expression) (p : Parser) {ts : List Token} {last : Token}
    {d : Nat} (tokens : p.cursor.tokens = ts ++ [last]) (kinds : ts.map Token.kind = e.print s)
    (sameLine : ∀ t ∈ ts, t.newlineBefore = false) (ends : last.kind = .endOfInput)
    (deep : depthFor ts.length ≤ d) :
    ∃ id p' q, p.assignment d = .ok (id, p') ∧ p'.cursor.tokens = [last] ∧
      Phrase.Placed p'.tree.nodes q id ∧ q.bare = e.phrase := by
  obtain ⟨⟨ts', stop⟩, tree, table?⟩ := p
  subst tokens
  set p : Parser := ⟨⟨ts ++ [last], stop⟩, tree, table?⟩
  obtain ⟨q, stop', reads, bare⟩ := e.assignment_print s stop kinds sameLine ends deep
  have entered : p.assignment d = (Grammar.assignment d p.cursor).map p.enter :=
    (Parser.allocates d).assignment p p.cursor
  rw [reads] at entered
  exact ⟨p.idOf q, (p.put q).moveTo ⟨[last], stop'⟩, q, entered, rfl, p.shows_put q, bare⟩

/-- `x = (x - "a") * !x.y`, with the token kinds written out. -/
theorem Expression.parse_print_product :
    let tokens : List Token :=
      [.ident "x", .punct .assign, .punct .leftParen, .ident "x", .punct .minus, .string "a",
        .punct .rightParen, .punct .star, .punct .bang, .ident "x", .punct .dot,
        .ident "y"].map fun kind => ⟨kind, .point 0, false, false⟩
    let last : Token := ⟨.endOfInput, .point 0, false, false⟩
    let x : Phrase := .of (.identifier "x")
    ∃ id p q, (Parser.start (tokens ++ [last]) .script none).assignment (depthFor 12) =
        .ok (id, p) ∧ p.cursor.tokens = [last] ∧ Phrase.Placed p.tree.nodes q id ∧
      q.bare = .of (.assignmentExpression .assign x (.of (.binaryExpression .mul
        (.of (.binaryExpression .sub x (.of (.literal (.string "a")))))
        (.of (.unaryExpression .not
          (.of (.memberExpression x (.of (.identifier "y")) false))))))) := by
  intro tokens last x
  let s : Spelling := ⟨.ident, fun _ => .inl rfl, 1, 2⟩
  let ex : Expression := .reference (.identifier "x")
  let e : Expression := .assignment .plain (.identifier "x") (.joined (.binary .mul)
    (.joined (.binary .sub) ex (.literal (.string "a")))
    (.unary .not (.reference (.member ex "y"))))
  have kinds : tokens.map Token.kind = e.print s := rfl
  have sameLine : ∀ t ∈ tokens, t.newlineBefore = false := by
    intro t ht
    obtain ⟨kind, -, rfl⟩ := List.mem_map.mp ht
    rfl
  exact Expression.parse_print s e _ rfl kinds sameLine rfl le_rfl

end ScriptDebugger
