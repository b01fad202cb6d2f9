import ScriptDebugger.Proofs.Syntax.Depth

/-!
# One token of lookahead

A grammar function looks at the token that it stops at and no further: whatever
follows that token may be replaced (`Derives.graft`). A function stops behind its
closing brace and does not look at what comes there (`Derives.function_graft`).
-/

namespace ScriptDebugger

namespace Cursor

variable {n : Nat} {c : Cursor}

/-- The cursor stands before the last `n` tokens. -/
def Before (n : Nat) (c : Cursor) : Prop := n < c.left

lemma Before.of_left {c' : Cursor} (more : c'.Before n) (h : c'.left ≤ c.left) : c.Before n :=
  Nat.lt_of_lt_of_le more h

@[grind →] lemma Before.of_advance (more : c.advance.Before n) : c.Before n :=
  more.of_left (left_advance_le c)

variable (zs : List Token)

/-- The cursor with other tokens in the place of the last `n`. -/
def graft (n : Nat) (zs : List Token) (c : Cursor) : Cursor :=
  ⟨c.tokens.take (c.left - n) ++ zs, c.lastStop⟩

lemma current_graft (more : c.Before n) : (c.graft n zs).current = c.current := by
  obtain ⟨ts, l⟩ := c
  cases ts with
  | nil => exact absurd more (Nat.not_lt_zero n)
  | cons t ts =>
    have some : (t :: ts).length - n = ts.length - n + 1 := by
      simp only [Before, left, List.length_cons] at more ⊢
      omega
    simp only [graft, left, some]
    rfl

@[grind =] lemma kind_graft (more : c.Before n) : (c.graft n zs).kind = c.kind :=
  congrArg Token.kind (current_graft zs more)

@[grind =] lemma span_graft (more : c.Before n) : (c.graft n zs).span = c.span :=
  congrArg Token.span (current_graft zs more)

@[grind =] lemma newlineBefore_graft (more : c.Before n) :
    (c.graft n zs).newlineBefore = c.newlineBefore :=
  congrArg Token.newlineBefore (current_graft zs more)

@[grind =] lemma at?_graft (more : c.Before n) (p : Punct) : (c.graft n zs).at? p = c.at? p :=
  congrArg (TokenKind.isPunct p) (kind_graft zs more)

@[grind =] lemma atKeyword?_graft (more : c.Before n) (k : Keyword) :
    (c.graft n zs).atKeyword? k = c.atKeyword? k :=
  congrArg (TokenKind.isKeyword k) (kind_graft zs more)

@[grind =] lemma atEnd_graft (more : c.Before n) : (c.graft n zs).atEnd = c.atEnd :=
  congrArg TokenKind.isEndOfInput (kind_graft zs more)

@[grind =] lemma mayEnd_graft (more : c.Before n) :
    Grammar.mayEnd (c.graft n zs) = Grammar.mayEnd c := by
  simp only [Grammar.mayEnd, at?_graft zs more, atEnd_graft zs more, newlineBefore_graft zs more]

@[grind =] lemma spanFrom_graft (s : Span) : (c.graft n zs).spanFrom s = c.spanFrom s := rfl

@[grind =] lemma advance_graft (more : c.advance.Before n) :
    (c.graft n zs).advance = c.advance.graft n zs := by
  have inside : c.Before n := more.of_advance
  by_cases ends : c.atEnd = true
  · rw [advance_of_atEnd ends, advance_of_atEnd ((atEnd_graft zs inside).trans ends)]
  · obtain ⟨ts, l⟩ := c
    cases ts with
    | nil => exact absurd inside (Nat.not_lt_zero n)
    | cons t ts =>
      have kind : t.kind.isEndOfInput = false := Bool.eq_false_iff.mpr ends
      rw [advance_of_tokens rfl kind] at more
      have some : (t :: ts).length - n = ts.length - n + 1 := by
        simp only [Before, left, List.length_cons] at more ⊢
        omega
      have image : (Cursor.mk (t :: ts) l).graft n zs =
          ⟨t :: (ts.take (ts.length - n) ++ zs), l⟩ := by
        rw [graft, left, some]
        rfl
      rw [image, advance_of_tokens rfl kind, advance_of_tokens rfl kind]
      rfl

/-- Behind the last token that is left as it is stand the others. -/
lemma advance_graft_last (more : c.atEnd = false) :
    (c.graft c.advance.left zs).advance = ⟨zs, c.advance.lastStop⟩ := by
  obtain ⟨ts, l⟩ := c
  cases ts with
  | nil => cases more
  | cons t ts =>
    have one : (t :: ts).length - ts.length = 1 := by
      rw [List.length_cons]
      omega
    have image : (Cursor.mk (t :: ts) l).graft ts.length zs = ⟨t :: zs, l⟩ := by
      rw [graft, left, one]
      rfl
    have next : (Cursor.mk (t :: ts) l).advance = ⟨ts, t.span.stop⟩ := advance_of_tokens rfl more
    rw [next, left, image]
    exact advance_of_tokens rfl more

end Cursor

namespace Grammar

open Cursor

variable {d n : Nat} {g : Goal} {c c' : Cursor} {y : Yield} (zs : List Token)

@[grind →] lemma before_bindingIdentifier {p : Phrase} (h : bindingIdentifier c = .ok (p, c'))
    (more : c'.Before n) : c.Before n :=
  more.of_left (Nat.le_of_succ_le (left_of_bindingIdentifier h).le)

@[grind →] lemma before_propertyName {p : Phrase} (h : propertyName c = .ok (p, c'))
    (more : c'.Before n) : c.Before n :=
  more.of_left (Nat.le_of_succ_le (left_of_propertyName h).le)

@[grind →] lemma before_propertyKey {k : String} (h : propertyKey c = .ok (k, c'))
    (more : c'.Before n) : c.Before n :=
  more.of_left (Nat.le_of_succ_le (left_of_propertyKey h).le)

@[grind →] lemma before_endStatement (h : endStatement c = .ok c') (more : c'.Before n) :
    c.Before n :=
  more.of_left (left_of_endStatement h)

lemma before_ending {terminated : Bool}
    (stop : (if terminated then endStatement c else .ok c) = .ok c') (more : c'.Before n) :
    c.Before n := by
  cases terminated with
  | true => exact before_endStatement stop more
  | false =>
    cases stop
    exact more

@[grind →] lemma Derives.before (h : Derives d g c y c') (more : c'.Before n) : c.Before n :=
  more.of_left h.left_le

lemma bindingIdentifier_graft {p : Phrase} (h : bindingIdentifier c = .ok (p, c'))
    (more : c'.Before n) : bindingIdentifier (c.graft n zs) = .ok (p, c'.graft n zs) := by
  have inside := before_bindingIdentifier h more
  simp only [bindingIdentifier] at h ⊢
  split at h <;> cases h
  rename_i token
  simp only [kind_graft zs inside, token, span_graft zs inside, advance_graft zs more]

lemma propertyName_graft {p : Phrase} (h : propertyName c = .ok (p, c'))
    (more : c'.Before n) : propertyName (c.graft n zs) = .ok (p, c'.graft n zs) := by
  have inside := before_propertyName h more
  simp only [propertyName] at h ⊢
  split at h <;> cases h
  all_goals
    rename_i token
    simp only [kind_graft zs inside, token, span_graft zs inside, advance_graft zs more]

lemma propertyKey_graft {k : String} (h : propertyKey c = .ok (k, c'))
    (more : c'.Before n) : propertyKey (c.graft n zs) = .ok (k, c'.graft n zs) := by
  have inside := before_propertyKey h more
  simp only [propertyKey] at h ⊢
  split at h <;> cases h
  all_goals
    rename_i token
    simp only [kind_graft zs inside, token, advance_graft zs more]

lemma endStatement_graft (h : endStatement c = .ok c') (more : c'.Before n) :
    endStatement (c.graft n zs) = .ok (c'.graft n zs) := by
  have inside := before_endStatement h more
  simp only [endStatement, at?_graft zs inside, mayEnd_graft zs inside, refuseArrow] at h ⊢
  split at h
  case isTrue semicolon =>
    cases h
    rw [if_pos semicolon, advance_graft zs more]
  case isFalse noSemicolon =>
    rw [if_neg noSemicolon]
    split at h
    case isTrue ends =>
      cases h
      rw [if_pos ends]
    case isFalse => split at h <;> cases h

lemma ending_graft {terminated : Bool}
    (stop : (if terminated then endStatement c else .ok c) = .ok c') (more : c'.Before n) :
    (if terminated then endStatement (c.graft n zs) else .ok (c.graft n zs)) =
      .ok (c'.graft n zs) := by
  cases terminated with
  | true => exact endStatement_graft zs stop more
  | false =>
    cases stop
    rfl

variable {zs}

lemma Derives.past (h : Derives d g (c.advance.graft n zs) y c') (more : c.advance.Before n) :
    Derives d g (c.graft n zs).advance y c' := by
  rwa [advance_graft zs more]

variable (zs) in
lemma propertyName_past {p : Phrase} (h : propertyName c.advance = .ok (p, c'))
    (more : c'.Before n) : propertyName (c.graft n zs).advance = .ok (p, c'.graft n zs) := by
  rw [advance_graft zs (by grind)]
  exact propertyName_graft zs h more

variable (zs) in
lemma bindingIdentifier_past {p : Phrase} (h : bindingIdentifier c.advance = .ok (p, c'))
    (more : c'.Before n) : bindingIdentifier (c.graft n zs).advance = .ok (p, c'.graft n zs) := by
  rw [advance_graft zs (by grind)]
  exact bindingIdentifier_graft zs h more

variable (zs) in
lemma endStatement_past (h : endStatement c.advance = .ok c') (more : c'.Before n) :
    endStatement (c.graft n zs).advance = .ok (c'.graft n zs) := by
  rw [advance_graft zs (by grind)]
  exact endStatement_graft zs h more

variable (zs) in
/-- Whatever follows the token that a derivation stops at may be replaced. -/
theorem Derives.graft (h : Derives d g c y c') (more : c'.Before n) :
    Derives d g (c.graft n zs) y (c'.graft n zs) := by
  -- The tokens that a rule looks at are those of cursors before the last `n`. Where the yield has
  -- a span, its ends are put in terms of the grafted cursors first.
  induction h
  case assignment_none op ih => exact .assignment_none (ih more) (by grind)
  case assignment left op target right left_ih right_ih =>
    exact .assignment (left_ih (by grind)) (by grind) target ((right_ih more).past (by grind))
  case conditional_none test question ih => exact .conditional_none (ih more) (by grind)
  case conditional test question consequent colon alternate test_ih consequent_ih alternate_ih =>
    exact .conditional (test_ih (by grind)) (by grind) ((consequent_ih (by grind)).past (by grind))
      (by grind) ((alternate_ih more).past (by grind))
  case operators left tail left_ih tail_ih => exact .operators (left_ih (by grind)) (tail_ih more)
  case operatorTail_none op => exact .operatorTail_none (by grind)
  case operatorTail_weaker op weaker => exact .operatorTail_weaker (by grind) weaker
  case operatorTail op binds right tail right_ih tail_ih =>
    exact .operatorTail (by grind) binds ((right_ih (by grind)).past (by grind)) (tail_ih more)
  case unary op argument ih =>
    rw [← span_graft (n := n) zs (by grind)]
    exact .unary (by grind) ((ih more).past (by grind))
  case unary_update notUnary op argument target ih =>
    rw [← span_graft (n := n) zs (by grind)]
    exact .unary_update (by grind) (by grind) ((ih more).past (by grind)) target
  case unary_postfixed notUnary notUpdate rest ih =>
    exact .unary_postfixed (by grind) (by grind) (ih more)
  case postfixed_none head chain alone head_ih chain_ih =>
    exact .postfixed_none (head_ih (by grind)) (chain_ih more) (by grind)
  case postfixed head chain sameLine op target head_ih chain_ih =>
    rw [← span_graft (n := n) zs (by grind), ← advance_graft zs more]
    exact .postfixed (head_ih (by grind)) (chain_ih (by grind)) (by grind) (by grind) target
  case head_construction word rest ih => exact .head_construction (by grind) (ih more)
  case head_primary word rest ih => exact .head_primary (by grind) (ih more)
  case accesses_none call dot bracket => exact .accesses_none (by grind) (by grind) (by grind)
  case accesses_call call arguments close chain arguments_ih chain_ih =>
    exact .accesses_call (by grind) ((arguments_ih (by grind)).past (by grind)) (by grind)
      (by grind)
  case accesses_dot call dot name chain ih =>
    rw [← spanFrom_graft (n := n) zs] at ih
    exact .accesses_dot (by grind) (by grind) (propertyName_past zs name (by grind)) (ih more)
  case accesses_bracket call dot bracket key close chain key_ih chain_ih =>
    exact .accesses_bracket (by grind) (by grind) (by grind) ((key_ih (by grind)).past (by grind))
      (by grind) (by grind)
  case construction_none head chain paren head_ih chain_ih =>
    rw [← span_graft (n := n) zs (by grind)]
    exact .construction_none ((head_ih (by grind)).past (by grind)) (chain_ih more) (by grind)
  case construction head chain paren arguments close head_ih chain_ih arguments_ih =>
    rw [← span_graft (n := n) zs (by grind), ← spanFrom_graft (n := n) zs, ← advance_graft zs more]
    exact .construction ((head_ih (by grind)).past (by grind)) (chain_ih (by grind)) (by grind)
      ((arguments_ih (by grind)).past (by grind)) (by grind)
  case elements_nil close => exact .elements_nil (by grind)
  case elements_last close first comma ih => exact .elements_last (by grind) (ih more) (by grind)
  case elements_cons close first comma rest first_ih rest_ih =>
    exact .elements_cons (by grind) (first_ih (by grind)) (by grind)
      ((rest_ih more).past (by grind))
  case properties_nil close => exact .properties_nil (by grind)
  case properties_last close key colon value comma ih =>
    rw [← span_graft (n := n) zs (by grind)]
    exact .properties_last (by grind) (propertyKey_graft zs key (by grind)) (by grind)
      ((ih more).past (by grind)) (by grind)
  case properties_cons close key colon value comma rest value_ih rest_ih =>
    rw [← span_graft (n := n) zs (by grind)]
    exact .properties_cons (by grind) (propertyKey_graft zs key (by grind)) (by grind)
      ((value_ih (by grind)).past (by grind)) (by grind) ((rest_ih more).past (by grind))
  case primary_literal token =>
    rw [← span_graft (n := n) zs (by grind), ← advance_graft zs more]
    exact .primary_literal (by grind)
  case primary_identifier token noArrow =>
    rw [← span_graft (n := n) zs (by grind), ← advance_graft zs more]
    exact .primary_identifier (by grind) (by grind)
  case primary_paren token inner close noArrow ih =>
    rw [← advance_graft zs more]
    exact .primary_paren (by grind) ((ih (by grind)).past (by grind)) (by grind) (by grind)
  case primary_array token items close ih =>
    rw [← span_graft (n := n) zs (by grind), ← spanFrom_graft (n := n) zs, ← advance_graft zs more]
    exact .primary_array (by grind) ((ih (by grind)).past (by grind)) (by grind)
  case primary_object token items close ih =>
    rw [← span_graft (n := n) zs (by grind), ← spanFrom_graft (n := n) zs, ← advance_graft zs more]
    exact .primary_object (by grind) ((ih (by grind)).past (by grind)) (by grind)
  case primary_function token anonymous rest ih =>
    rw [← span_graft (n := n) zs (by grind)]
    exact .primary_function (by grind) (by grind) ((ih more).past (by grind))
  case primary_namedFunction c name _ _ _ token named rest ih =>
    have word : (c.graft n zs).advance.kind = .ident name := by grind
    have place : (c.graft n zs).advance.span = c.advance.span := by grind
    rw [← span_graft (n := n) zs (by grind), ← spanFrom_graft (n := n) zs, ← place]
    refine .primary_namedFunction (by grind) word ?_
    rw [advance_graft zs (by grind)]
    exact (ih more).past (by grind)
  case parameters_nil close => exact .parameters_nil (by grind)
  case parameters_last close first comma =>
    exact .parameters_last (by grind) (bindingIdentifier_graft zs first more) (by grind)
  case parameters_cons close first comma rest ih =>
    exact .parameters_cons (by grind) (bindingIdentifier_graft zs first (by grind)) (by grind)
      ((ih more).past (by grind))
  case functionRest paren params close body params_ih body_ih =>
    exact .functionRest (by grind) ((params_ih (by grind)).past (by grind)) (by grind)
      ((body_ih more).past (by grind))
  case block brace body ih =>
    rw [← span_graft (n := n) zs (by grind), ← spanFrom_graft (n := n) zs, ← advance_graft zs more]
    exact .block (by grind) ((ih (by grind)).past (by grind))
  case blockBody_nil close => exact .blockBody_nil (by grind)
  case blockBody_cons close inside first rest first_ih rest_ih =>
    exact .blockBody_cons (by grind) (by grind) (first_ih (by grind)) (rest_ih more)
  case initializer_none assign => exact .initializer_none (by grind)
  case initializer assign value ih => exact .initializer (by grind) ((ih more).past (by grind))
  case declarators_last name init comma ih =>
    exact .declarators_last (bindingIdentifier_graft zs name (by grind)) (ih more) (by grind)
  case declarators_cons name init comma rest init_ih rest_ih =>
    rw [← spanFrom_graft (n := n) zs]
    exact .declarators_cons (bindingIdentifier_graft zs name (by grind)) (init_ih (by grind))
      (by grind) ((rest_ih more).past (by grind))
  case declaration names stop ih =>
    have := before_ending stop more
    rw [← span_graft (n := n) zs (by grind)]
    exact .declaration ((ih (by grind)).past (by grind)) (ending_graft zs stop more)
  case parenthesized paren inner close ih =>
    rw [← advance_graft zs more]
    exact .parenthesized (by grind) ((ih (by grind)).past (by grind)) (by grind)
  case optional_none close => exact .optional_none (by grind)
  case optional close inner ih => exact .optional (by grind) (ih more)
  case forInit_declaration word rest ih => exact .forInit_declaration (by grind) (ih more)
  case forInit word rest ih => exact .forInit (by grind) (ih more)
  case forStatement paren init noIteration first test second update close body init_ih test_ih
      update_ih body_ih =>
    rw [← span_graft (n := n) zs (by grind)]
    refine .forStatement (by grind) ?_ (by grind) (by grind) ((test_ih (by grind)).past (by grind))
      (by grind) ((update_ih (by grind)).past (by grind)) (by grind)
      ((body_ih more).past (by grind))
    rw [advance_graft zs (by grind)]
    exact (init_ih (by grind)).past (by grind)
  case result_none ends => exact .result_none (by grind)
  case result ends rest ih => exact .result (by grind) (ih more)
  case statement_block token rest ih => exact .statement_block (by grind) (ih more)
  case statement_declaration token rest ih => exact .statement_declaration (by grind) (ih more)
  case statement_function token name rest ih =>
    rw [← span_graft (n := n) zs (by grind)]
    exact .statement_function (by grind)
      (bindingIdentifier_past zs name (by grind)) (ih more)
  case statement_if token test consequent noElse test_ih consequent_ih =>
    rw [← span_graft (n := n) zs (by grind)]
    exact .statement_if (by grind) ((test_ih (by grind)).past (by grind)) (consequent_ih more)
      (by grind)
  case statement_ifElse token test consequent else_ alternate test_ih consequent_ih alternate_ih =>
    rw [← span_graft (n := n) zs (by grind)]
    exact .statement_ifElse (by grind) ((test_ih (by grind)).past (by grind))
      (consequent_ih (by grind)) (by grind) ((alternate_ih more).past (by grind))
  case statement_for token rest ih => exact .statement_for (by grind) (ih more)
  case statement_while token test body test_ih body_ih =>
    rw [← span_graft (n := n) zs (by grind)]
    exact .statement_while (by grind) ((test_ih (by grind)).past (by grind)) (body_ih more)
  case statement_return token legal argument stop ih =>
    rw [← span_graft (n := n) zs (by grind)]
    exact .statement_return (by grind) legal ((ih (by grind)).past (by grind))
      (endStatement_graft zs stop more)
  case statement_throw token sameLine argument stop ih =>
    rw [← span_graft (n := n) zs (by grind)]
    exact .statement_throw (by grind) (by grind) ((ih (by grind)).past (by grind))
      (endStatement_graft zs stop more)
  case statement_break token legal stop =>
    rw [← span_graft (n := n) zs (by grind)]
    exact .statement_break (by grind) legal
      (endStatement_past zs stop more)
  case statement_continue token legal stop =>
    rw [← span_graft (n := n) zs (by grind)]
    exact .statement_continue (by grind) legal
      (endStatement_past zs stop more)
  case statement_debugger token stop =>
    rw [← span_graft (n := n) zs (by grind)]
    exact .statement_debugger (by grind)
      (endStatement_past zs stop more)
  case statement_empty token =>
    rw [← span_graft (n := n) zs (by grind), ← advance_graft zs more]
    exact .statement_empty (by grind)
  case statement_expression token expression stop ih =>
    rw [← span_graft (n := n) zs (by grind)]
    exact .statement_expression (by grind) (ih (by grind)) (endStatement_graft zs stop more)
  case programBody_nil atEnd => exact .programBody_nil (by grind)
  case programBody_cons inside first rest first_ih rest_ih =>
    exact .programBody_cons (by grind) (first_ih (by grind)) (rest_ih more)

variable (zs)

/-- What follows a block may be replaced. -/
lemma Derives.block_graft {ctx : Context} (h : Derives d (.block ctx) c y c') :
    Derives d (.block ctx) (c.graft c'.left zs) y ⟨zs, c'.lastStop⟩ := by
  cases h with
  | @block _ _ _ _ c₁ brace body =>
    have last := body.at_rightBrace ⟨_, rfl⟩
    have more : c₁.Before c₁.advance.left := (left_of_at? last).le
    have first := body.before more
    have read := (body.graft zs more).past first
    have inner := Derives.block ((at?_graft zs first.of_advance _).trans brace) read
    rwa [span_graft zs first.of_advance, advance_graft_last zs (not_atEnd_of_at? last)] at inner

lemma Derives.functionRest_graft (h : Derives d .functionRest c y c') :
    Derives d .functionRest (c.graft c'.left zs) y ⟨zs, c'.lastStop⟩ := by
  cases h with
  | functionRest paren params close body =>
    have brace : Before c'.left _ := body.left_lt rfl
    have inside := body.block_graft zs
    rw [← advance_graft zs brace] at inside
    have read := (params.graft zs brace.of_advance).past (params.before brace.of_advance)
    exact .functionRest (by grind) read (by grind) inside

/-- What is read from the word `function` on is a function with or without a name. -/
lemma Derives.function_cases {motive : Nat → Yield → Cursor → Prop}
    (h : Derives d .primary c y c') (word : c.kind = .keyword .functionWord)
    (anonymous : ∀ {d ps b c'}, (∀ name, c.advance.kind ≠ .ident name) →
      Derives d .functionRest c.advance (.function ps b) c' →
      motive (d + 1) (.one ⟨c'.spanFrom c.span, .functionExpression none ps b⟩) c')
    (named : ∀ {d name ps b c'}, c.advance.kind = .ident name →
      Derives d .functionRest c.advance.advance (.function ps b) c' →
      motive (d + 1) (.one ⟨c'.spanFrom c.span,
        .functionExpression (some ⟨c.advance.span, .identifier name⟩) ps b⟩) c') :
    motive d y c' := by
  cases h with
  | primary_function _ noName rest => exact anonymous noName rest
  | primary_namedFunction _ name rest => exact named name rest
  | primary_literal token =>
    rw [word] at token
    cases token
  | _ token =>
    rw [word] at token
    cases token

/-- What follows a function may be replaced. -/
theorem Derives.function_graft (h : Derives d .primary c y c')
    (word : c.kind = .keyword .functionWord) :
    Derives d .primary (c.graft c'.left zs) y ⟨zs, c'.lastStop⟩ := by
  refine h.function_cases (motive := fun d y c' =>
    Derives d .primary (c.graft c'.left zs) y ⟨zs, c'.lastStop⟩) word ?anonymous ?named
  case anonymous =>
    intro d ps b c' anonymous rest
    have next : Before c'.left _ := rest.left_lt rfl
    have inside := rest.functionRest_graft zs
    rw [← advance_graft zs next] at inside
    have read := Derives.primary_function (by grind) (by grind) inside
    rwa [span_graft zs next.of_advance] at read
  case named =>
    intro d name ps b c' named rest
    have next : Before c'.left _ := rest.left_lt rfl
    have inside := rest.functionRest_graft zs
    rw [← advance_graft zs next, ← advance_graft zs next.of_advance] at inside
    have word : (c.graft c'.left zs).advance.kind = .ident name := by grind
    have read := Derives.primary_namedFunction (by grind) word inside
    rwa [span_graft zs next.of_advance.of_advance, advance_graft zs next.of_advance,
      span_graft zs next.of_advance] at read

end Grammar

end ScriptDebugger
