import ScriptDebugger.Proofs.Syntax.MovedDerivation
import ScriptDebugger.Proofs.Syntax.Recognition

/-!
# The depth of a search

The bound on the depth that the grammar functions take is only a bound: what is
found within some depth is found within every depth that allows a few calls for
each token consumed (`Derives.within`). So no phrase is missed because
`Grammar.depthFor` is too small (`Grammar.program_of_depth`).
-/

namespace ScriptDebugger

namespace Cursor

/-- How many tokens are left. -/
def left (c : Cursor) : Nat := c.tokens.length

lemma left_advance {c : Cursor} (more : c.atEnd = false) : c.advance.left + 1 = c.left := by
  cases hc : c.tokens with
  | nil => simp [atEnd, kind, current, hc, TokenKind.isEndOfInput] at more
  | cons t ts =>
    have inside : t.kind.isEndOfInput = false := by rwa [atEnd, kind_of_tokens hc] at more
    rw [advance_of_tokens hc inside, left, left, hc, List.length_cons]

lemma left_advance_le (c : Cursor) : c.advance.left ≤ c.left := by
  cases more : c.atEnd with
  | false =>
    have := left_advance more
    omega
  | true => rw [advance_of_atEnd more]

end Cursor

namespace Grammar

open Cursor

variable {d : Nat} {g : Goal} {c c' : Cursor} {y : Yield}

lemma left_of_at? {p : Punct} (h : c.at? p = true) : c.advance.left + 1 = c.left :=
  left_advance (not_atEnd_of_at? h)

lemma left_of_atKeyword? {k : Keyword} (h : c.atKeyword? k = true) :
    c.advance.left + 1 = c.left :=
  left_advance (not_atEnd_of_kind (TokenKind.isKeyword k) rfl h)

lemma left_of_punct {p : Punct} (h : c.kind = .punct p) :
    c.advance.left + 1 = c.left :=
  left_advance (not_atEnd_of_kind_eq h rfl)

lemma left_of_keyword {k : Keyword} (h : c.kind = .keyword k) :
    c.advance.left + 1 = c.left :=
  left_advance (not_atEnd_of_kind_eq h rfl)

lemma left_of_ident {name : String} (h : c.kind = .ident name) :
    c.advance.left + 1 = c.left :=
  left_advance (not_atEnd_of_kind_eq h rfl)

lemma left_of_some {α : Type} {read : TokenKind → Option α} (none : read .endOfInput = none)
    {a : α} (h : read c.kind = some a) : c.advance.left + 1 = c.left :=
  left_advance (not_atEnd_of_some none h)

lemma left_of_literal {l : Literal} (h : literal? c.kind = some l) :
    c.advance.left + 1 = c.left :=
  left_of_some rfl h

lemma left_of_bindingIdentifier {n : Phrase} (h : bindingIdentifier c = .ok (n, c')) :
    c'.left + 1 = c.left := by
  have more := not_atEnd_of_bindingIdentifier h
  simp only [bindingIdentifier] at h
  split at h <;> cases h
  exact left_advance more

lemma left_of_propertyName {n : Phrase} (h : propertyName c = .ok (n, c')) :
    c'.left + 1 = c.left := by
  simp only [propertyName] at h
  split at h
  case h_3 => cases h
  all_goals
    rename_i token
    cases h
    exact left_advance (not_atEnd_of_kind_eq token rfl)

lemma left_of_propertyKey {k : String} (h : propertyKey c = .ok (k, c')) :
    c'.left + 1 = c.left := by
  simp only [propertyKey] at h
  split at h
  case h_5 => cases h
  all_goals
    rename_i token
    cases h
    exact left_advance (not_atEnd_of_kind_eq token rfl)

lemma left_of_endStatement (h : endStatement c = .ok c') : c'.left ≤ c.left := by
  simp only [endStatement] at h
  split at h
  case isTrue =>
    cases h
    exact left_advance_le c
  case isFalse =>
    split at h
    case isTrue =>
      cases h
      exact le_rfl
    case isFalse =>
      simp only [refuseArrow] at h
      split at h <;> cases h

attribute [local grind →] left_of_at? left_of_atKeyword? left_of_punct left_of_keyword left_of_ident
  left_of_literal left_of_bindingIdentifier left_of_propertyName left_of_propertyKey
  left_of_endStatement

/-- A derivation leaves no more tokens than it finds, and fewer where its goal needs one. -/
lemma Derives.left_add_le (h : Derives d g c y c') : c'.left + g.consumes.toNat ≤ c.left := by
  induction h
  all_goals simp only [Goal.consumes, Bool.toNat_true, Bool.toNat_false] at *
  all_goals grind [left_advance_le]

lemma Derives.left_le (h : Derives d g c y c') : c'.left ≤ c.left := by
  have := h.left_add_le
  omega

attribute [local grind →] Derives.left_le

lemma Derives.left_lt (h : Derives d g c y c') (hg : g.consumes = true) : c'.left < c.left := by
  have := h.left_add_le
  rw [hg] at this
  exact this

/-- How many calls may lie between the search for a goal and the first token it consumes. -/
def Goal.weight : Goal → Nat
  | .head | .initializer | .primary | .construction | .accesses .. | .operatorTail ..
  | .properties | .parameters | .functionRest | .block _ | .declarators | .parenthesized
  | .forStatement _ => 1
  | .postfixed | .declaration .. => 2
  | .unary => 3
  | .operators _ => 4
  | .conditional => 5
  | .assignment => 6
  | .elements _ | .optional _ | .result | .statement _ => 7
  | .forInit | .blockBody _ | .programBody => 8

/-- What is found is found within every depth that is as great, or great enough for the tokens
consumed. Each call passes on a goal of less weight, or has consumed a token by then. -/
theorem Derives.within (h : Derives d g c y c') {d' : Nat}
    (enough : d ≤ d' ∨ 16 * (c.left - c'.left) + g.weight ≤ d') : Derives d' g c y c' := by
  induction h generalizing d'
  all_goals simp only [Goal.weight] at *
  case head_construction word rest ih => exact .head_construction word (ih enough)
  case head_primary word rest ih => exact .head_primary word (ih enough)
  case initializer_none assign => exact .initializer_none assign
  case initializer assign value ih => exact .initializer assign (ih (by grind))
  case result_none ends => exact .result_none ends
  case result ends rest ih => exact .result ends (ih enough)
  all_goals obtain ⟨k, rfl⟩ : ∃ k, d' = k + 1 := ⟨d' - 1, by omega⟩
  case assignment_none left op ih => exact .assignment_none (ih (by omega)) op
  case assignment left op target right left_ih right_ih =>
    have := left.left_lt rfl
    have := left_of_some rfl op
    have := right.left_le
    exact .assignment (left_ih (by omega)) op target (right_ih (by omega))
  case conditional_none test question ih => exact .conditional_none (ih (by omega)) question
  case conditional test question consequent colon alternate test_ih consequent_ih alternate_ih =>
    have := test.left_le
    have := left_of_at? question
    have := consequent.left_le
    have := left_of_at? colon
    have := alternate.left_le
    exact .conditional (test_ih (by omega)) question (consequent_ih (by omega)) colon
      (alternate_ih (by omega))
  case operators left tail left_ih tail_ih =>
    have := left.left_lt rfl
    have := tail.left_le
    exact .operators (left_ih (by omega)) (tail_ih (by omega))
  case operatorTail_none op => exact .operatorTail_none op
  case operatorTail_weaker op weaker => exact .operatorTail_weaker op weaker
  case operatorTail op binds right tail right_ih tail_ih =>
    have := left_of_some rfl op
    have := right.left_lt rfl
    have := tail.left_le
    exact .operatorTail op binds (right_ih (by omega)) (tail_ih (by omega))
  case unary op argument ih =>
    have := left_of_some rfl op
    exact .unary op (ih (by grind))
  case unary_update notUnary op argument target ih =>
    have := left_of_some rfl op
    exact .unary_update notUnary op (ih (by grind)) target
  case unary_postfixed notUnary notUpdate rest ih =>
    exact .unary_postfixed notUnary notUpdate (ih (by grind))
  case postfixed_none head chain alone head_ih chain_ih =>
    have := head.left_lt rfl
    have := chain.left_le
    exact .postfixed_none (head_ih (by omega)) (chain_ih (by omega)) alone
  case postfixed head chain sameLine op target head_ih chain_ih =>
    have := head.left_lt rfl
    have := chain.left_le
    have := left_of_some rfl op
    exact .postfixed (head_ih (by omega)) (chain_ih (by omega)) sameLine op target
  case accesses_none call dot bracket => exact .accesses_none call dot bracket
  case accesses_call call arguments close chain arguments_ih chain_ih =>
    have := left_of_at? (Bool.and_eq_true_iff.mp call).2
    have := arguments.left_le
    have := left_of_at? close
    have := chain.left_le
    exact .accesses_call call (arguments_ih (by omega)) close (chain_ih (by omega))
  case accesses_dot call dot name chain ih =>
    have := left_of_propertyName name
    exact .accesses_dot call dot name (ih (by grind))
  case accesses_bracket call dot bracket key close chain key_ih chain_ih =>
    have := left_of_at? bracket
    have := key.left_le
    have := left_of_at? close
    have := chain.left_le
    exact .accesses_bracket call dot bracket (key_ih (by omega)) close (chain_ih (by omega))
  case construction_none head chain paren head_ih chain_ih =>
    have := head.left_lt rfl
    have := left_advance (atEnd_of_advance (head.not_atEnd rfl))
    have := chain.left_le
    exact .construction_none (head_ih (by omega)) (chain_ih (by omega)) paren
  case construction head chain paren arguments close head_ih chain_ih arguments_ih =>
    have := head.left_lt rfl
    have := left_advance (atEnd_of_advance (head.not_atEnd rfl))
    have := chain.left_le
    have := left_of_at? paren
    have := arguments.left_le
    have := left_of_at? close
    exact .construction (head_ih (by omega)) (chain_ih (by omega)) paren (arguments_ih (by omega))
      close
  case elements_nil close => exact .elements_nil close
  case elements_last close first comma ih => exact .elements_last close (ih (by omega)) comma
  case elements_cons close first comma rest first_ih rest_ih =>
    have := first.left_le
    have := left_of_at? comma
    have := rest.left_le
    exact .elements_cons close (first_ih (by omega)) comma (rest_ih (by omega))
  case properties_nil close => exact .properties_nil close
  case properties_last close key colon value comma ih =>
    exact .properties_last close key colon (ih (by grind)) comma
  case properties_cons close key colon value comma rest value_ih rest_ih =>
    have := left_of_propertyKey key
    have := left_of_at? colon
    have := value.left_le
    have := left_of_at? comma
    have := rest.left_le
    exact .properties_cons close key colon (value_ih (by omega)) comma (rest_ih (by omega))
  case primary_literal token => exact .primary_literal token
  case primary_identifier token noArrow => exact .primary_identifier token noArrow
  case primary_paren token inner close noArrow ih =>
    exact .primary_paren token (ih (by grind)) close noArrow
  case primary_array token items close ih => exact .primary_array token (ih (by grind)) close
  case primary_object token items close ih => exact .primary_object token (ih (by grind)) close
  case primary_function token anonymous rest ih =>
    exact .primary_function token anonymous (ih (by grind))
  case primary_namedFunction token named rest ih =>
    exact .primary_namedFunction token named (ih (by grind))
  case parameters_nil close => exact .parameters_nil close
  case parameters_last close first comma => exact .parameters_last close first comma
  case parameters_cons close first comma rest ih =>
    exact .parameters_cons close first comma (ih (by grind))
  case functionRest paren params close body params_ih body_ih =>
    have := left_of_at? paren
    have := params.left_le
    have := left_of_at? close
    have := body.left_le
    exact .functionRest paren (params_ih (by omega)) close (body_ih (by omega))
  case block brace body ih => exact .block brace (ih (by grind [left_advance_le]))
  case blockBody_nil close => exact .blockBody_nil close
  case blockBody_cons close more first rest first_ih rest_ih =>
    have := first.left_lt rfl
    have := rest.left_le
    exact .blockBody_cons close more (first_ih (by omega)) (rest_ih (by omega))
  case declarators_last name init comma ih =>
    exact .declarators_last name (ih (by grind)) comma
  case declarators_cons name init comma rest init_ih rest_ih =>
    have := left_of_bindingIdentifier name
    have := init.left_le
    have := left_of_at? comma
    have := rest.left_le
    exact .declarators_cons name (init_ih (by omega)) comma (rest_ih (by omega))
  case declaration names stop ih =>
    exact .declaration (ih (by grind [left_advance_le])) stop
  case parenthesized paren inner close ih => exact .parenthesized paren (ih (by grind)) close
  case optional_none close => exact .optional_none close
  case optional close inner ih => exact .optional close (ih (by omega))
  case forInit_declaration word rest ih => exact .forInit_declaration word (ih (by omega))
  case forInit word rest ih => exact .forInit word (ih (by omega))
  case forStatement paren init noIteration first test second update close body init_ih test_ih
      update_ih body_ih =>
    have := left_advance (atEnd_of_advance (not_atEnd_of_at? paren))
    have := left_of_at? paren
    have := init.left_le
    have := left_of_at? first
    have := test.left_le
    have := left_of_at? second
    have := update.left_le
    have := left_of_at? close
    have := body.left_le
    exact .forStatement paren (init_ih (by omega)) noIteration first
      (test_ih (by omega)) second (update_ih (by omega)) close (body_ih (by omega))
  case statement_block token rest ih => exact .statement_block token (ih (by omega))
  case statement_declaration token rest ih => exact .statement_declaration token (ih (by omega))
  case statement_function token name rest ih =>
    exact .statement_function token name (ih (by grind))
  case statement_if token test consequent noElse test_ih consequent_ih =>
    have := left_of_keyword token
    have := test.left_le
    have := consequent.left_le
    exact .statement_if token (test_ih (by omega)) (consequent_ih (by omega)) noElse
  case statement_ifElse token test consequent else_ alternate test_ih consequent_ih alternate_ih =>
    have := left_of_keyword token
    have := test.left_le
    have := consequent.left_le
    have := left_of_atKeyword? else_
    have := alternate.left_le
    exact .statement_ifElse token (test_ih (by omega)) (consequent_ih (by omega)) else_
      (alternate_ih (by omega))
  case statement_for token rest ih => exact .statement_for token (ih (by omega))
  case statement_while token test body test_ih body_ih =>
    have := left_of_keyword token
    have := test.left_le
    have := body.left_le
    exact .statement_while token (test_ih (by omega)) (body_ih (by omega))
  case statement_return token legal argument stop ih =>
    exact .statement_return token legal (ih (by grind)) stop
  case statement_throw token sameLine argument stop ih =>
    exact .statement_throw token sameLine (ih (by grind)) stop
  case statement_break token legal stop => exact .statement_break token legal stop
  case statement_continue token legal stop => exact .statement_continue token legal stop
  case statement_debugger token stop => exact .statement_debugger token stop
  case statement_empty token => exact .statement_empty token
  case statement_expression token expression stop ih =>
    exact .statement_expression token (ih (by grind)) stop
  case programBody_nil atEnd => exact .programBody_nil atEnd
  case programBody_cons more first rest first_ih rest_ih =>
    have := first.left_lt rfl
    have := rest.left_le
    exact .programBody_cons more (first_ih (by omega)) (rest_ih (by omega))

theorem Derives.mono (h : Derives d g c y c') {d' : Nat} (le : d ≤ d') : Derives d' g c y c' :=
  h.within (.inl le)

/-- What is found within some depth is found within `Grammar.depthFor`. -/
theorem program_of_derives {size : Nat} {tokens : List Token} {body : List Phrase}
    (found : Derives d .programBody (.start tokens) (.many body) c) :
    program size tokens = .ok ⟨⟨0, size⟩, .program body⟩ := by
  have enough : 16 * ((Cursor.start tokens).left - c.left) + Goal.programBody.weight ≤
      depthFor tokens.length := by
    have : (Cursor.start tokens).left = tokens.length := rfl
    simp only [Goal.weight, depthFor]
    omega
  exact program_eq_ok.mpr ⟨body, c, found.within (.inr enough), rfl⟩

/-- `Grammar.depthFor` misses no program. -/
theorem program_of_depth {size : Nat} {tokens : List Token} {body : List Phrase}
    (h : Grammar.programBody d (.start tokens) = .ok (body, c)) :
    program size tokens = .ok ⟨⟨0, size⟩, .program body⟩ :=
  program_of_derives (derives_iff.mpr (yields_ok h))

end Grammar

end ScriptDebugger
