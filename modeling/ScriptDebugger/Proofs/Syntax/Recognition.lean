import ScriptDebugger.Proofs.Syntax.Derivation

/-!
# Derivations are what the grammar functions find

A goal is met exactly when the grammar function of the goal succeeds, with the
same yield and the same cursor behind it. One direction is an induction on the
derivation, the other one on the depth, with a lemma for each grammar function.
-/

namespace ScriptDebugger.Grammar

section Results

variable {α β : Type}

@[simp] lemma ok_bind (a : α) (f : α → Result β) : ((.ok a : Result α) >>= f) = f a := rfl

lemma bind_eq_ok {x : Result α} {f : α → Result β} {b : β} :
    (x >>= f) = .ok b ↔ ∃ a, x = .ok a ∧ f a = .ok b := by
  cases x with
  | error e => constructor <;> (intro h; simp_all [bind, Except.bind])
  | ok a => simp

lemma yields_eq_ok {form : α → Yield} {r : Result (α × Cursor)} {y : Yield} {c : Cursor} :
    yields form r = .ok (y, c) ↔ ∃ a, r = .ok (a, c) ∧ form a = y := by
  cases r with
  | error e => simp [yields, Except.map]
  | ok x =>
    obtain ⟨a, c'⟩ := x
    constructor
    · intro h
      cases h
      exact ⟨a, rfl, rfl⟩
    · rintro ⟨a', h, rfl⟩
      cases h
      rfl

lemma expect_eq_ok {c c' : Cursor} {p : Punct} :
    c.expect p = .ok c' ↔ c.at? p = true ∧ c.advance = c' := by
  simp only [Cursor.expect]
  split <;> simp_all

lemma refuseArrow_eq_ok {c : Cursor} {u : Unit} :
    refuseArrow c = .ok u ↔ c.at? .arrow = false := by
  simp only [refuseArrow]
  split <;> simp_all

end Results

lemma varKind?_eq_some {k : TokenKind} {kind : VarKind} (h : varKind? k = some kind) :
    (k = .keyword .varWord ∧ kind = .varKind) ∨ (k = .keyword .letWord ∧ kind = .letKind) ∨
      (k = .keyword .constWord ∧ kind = .constKind) := by
  unfold varKind? at h
  split at h <;> cases h <;> simp

lemma primary_of_literal {d : Nat} {c : Cursor} {l : Literal} (h : literal? c.kind = some l) :
    Grammar.primary (d + 1) c = .ok (⟨c.span, .literal l⟩, c.advance) := by
  unfold literal? at h
  split at h
  case h_6 => cases h
  all_goals
    rename_i heq
    cases h
    simp only [Grammar.primary, heq]

/-- A statement that begins like an expression is one. -/
lemma statement_of_expression {d : Nat} {ctx : Context} {c : Cursor}
    (h : beginsExpression c.kind = true) :
    Grammar.statement (d + 1) ctx c = (do
      let (expression, c') ← Grammar.assignment d c
      let c' ← endStatement c'
      .ok (⟨c'.spanFrom c.span, .expressionStatement expression⟩, c')) := by
  cases hk : c.kind with
  | keyword k =>
    rw [hk] at h
    cases k <;> first | exact absurd h Bool.false_ne_true | simp only [Grammar.statement, hk]
  | punct p =>
    rw [hk] at h
    cases p <;> first | exact absurd h Bool.false_ne_true | simp only [Grammar.statement, hk]
  | reserved word =>
    rw [hk] at h
    exact absurd h Bool.false_ne_true
  | _ => simp only [Grammar.statement, hk]

/-- Every derivation is found by the grammar functions. -/
theorem run_of_derives {d : Nat} {g : Goal} {c c' : Cursor} {y : Yield}
    (h : Derives d g c y c') : g.run d c = .ok (y, c') := by
  induction h
  all_goals simp only [Goal.run, yields_eq_ok, Yield.one.injEq, Yield.many.injEq,
    Yield.maybe.injEq, Yield.function.injEq, Prod.exists, exists_eq_right] at *
  case operatorTail op binds right tail right_ih tail_ih =>
    obtain ⟨p, hp, rfl⟩ := tail_ih
    simp [Grammar.operatorTail, op, binds, right_ih, hp]
  case postfixed_none c _ _ _ _ head chain alone head_ih chain_ih =>
    rcases alone with alone | alone <;> cases hw : c.atKeyword? .newWord <;>
      simp_all [Grammar.postfixed]
  case postfixed c _ _ _ _ _ head chain sameLine op target head_ih chain_ih =>
    cases hw : c.atKeyword? .newWord <;> simp_all [Grammar.postfixed]
  case accesses_dot call dot name chain chain_ih =>
    obtain ⟨p, hp, rfl⟩ := chain_ih
    simp [Grammar.accesses, call, dot, name, hp]
  case accesses_bracket call dot bracket key close chain key_ih chain_ih =>
    obtain ⟨p, hp, rfl⟩ := chain_ih
    simp [Grammar.accesses, call, dot, bracket, key_ih, close, hp, Cursor.expect]
  case construction_none c _ _ _ _ head chain paren head_ih chain_ih =>
    cases hw : c.advance.atKeyword? .newWord <;> simp_all [Grammar.construction]
  case construction c _ _ _ _ _ _ head chain paren arguments close head_ih chain_ih args_ih =>
    cases hw : c.advance.atKeyword? .newWord <;>
      simp_all [Grammar.construction, Cursor.expect]
  case primary_literal token => exact primary_of_literal token
  case declarators_last c _ c₁ _ _ name init comma init_ih =>
    cases ha : c₁.at? .assign with
    | false => simp_all [Grammar.declarators]
    | true =>
      simp only [ha, if_true, bind_eq_ok] at init_ih
      obtain ⟨⟨p, c₂⟩, hp, hok⟩ := init_ih
      cases hok
      simp [Grammar.declarators, name, ha, hp, comma]
  case declarators_cons c _ c₁ _ _ _ _ name init comma rest init_ih rest_ih =>
    cases ha : c₁.at? .assign with
    | false => simp_all [Grammar.declarators]
    | true =>
      simp only [ha, if_true, bind_eq_ok] at init_ih
      obtain ⟨⟨p, c₂⟩, hp, hok⟩ := init_ih
      cases hok
      simp [Grammar.declarators, name, ha, hp, comma, rest_ih]
  case declaration terminated _ _ _ _ names stop names_ih =>
    cases terminated <;> simp_all [Grammar.declaration]
  case forInit_declaration word rest rest_ih =>
    rcases varKind?_eq_some word with ⟨token, rfl⟩ | ⟨token, rfl⟩ | ⟨token, rfl⟩ <;>
      simp [Grammar.forInit, token, rest_ih]
  case forInit c _ _ word rest rest_ih =>
    obtain ⟨o, ho, rfl⟩ := rest_ih
    refine ⟨o, ?_, rfl⟩
    simp only [Grammar.forInit]
    split <;> simp_all [varKind?]
  case statement_declaration token rest rest_ih =>
    obtain ⟨p, hp, rfl⟩ := rest_ih
    refine ⟨p, ?_, rfl⟩
    rcases varKind?_eq_some token with ⟨word, rfl⟩ | ⟨word, rfl⟩ | ⟨word, rfl⟩ <;>
      simp only [Grammar.statement, word, hp]
  case statement_expression token expression stop expression_ih =>
    simp [statement_of_expression token, expression_ih, stop]
  case statement_return c _ _ _ token legal argument stop argument_ih =>
    cases he : mayEnd c.advance <;> simp_all [Grammar.statement]
  all_goals
    simp_all [Grammar.assignment, Grammar.conditional, Grammar.operators, Grammar.operatorTail,
      Grammar.unary, Grammar.accesses, Grammar.elements, Grammar.properties, Grammar.primary,
      Grammar.parameters, Grammar.functionRest, Grammar.block, Grammar.blockBody,
      Grammar.parenthesized, Grammar.optional, Grammar.forStatement, Grammar.programBody,
      Grammar.statement, Cursor.expect, refuseArrow]

/-- Whatever the grammar functions find within depth `d` has a derivation. -/
def Complete (d : Nat) : Prop :=
  ∀ g c y c', Goal.run d c g = .ok (y, c') → Derives d g c y c'

lemma yields_ok {α : Type} {form : α → Yield} {r : Result (α × Cursor)} {a : α} {c : Cursor}
    (h : r = .ok (a, c)) : yields form r = .ok (form a, c) := yields_eq_ok.mpr ⟨a, h, rfl⟩

lemma run_functionRest {d : Nat} {c c' : Cursor} {ps : List Phrase} {b : Phrase}
    (h : Grammar.functionRest d c = .ok ((ps, b), c')) :
    Goal.run d c .functionRest = .ok (.function ps b, c') := by
  simp only [Goal.run, yields_eq_ok]
  exact ⟨(ps, b), h, rfl⟩

section Complete

variable {d : Nat} (ih : Complete d)
include ih

lemma assignment_derives {c c' : Cursor} {p : Phrase}
    (h : Grammar.assignment (d + 1) c = .ok (p, c')) :
    Derives (d + 1) .assignment c (.one p) c' := by
  simp only [Grammar.assignment, bind_eq_ok, Prod.exists] at h
  obtain ⟨l, c₁, hl, h⟩ := h
  have left := ih .conditional _ _ _ (yields_ok hl)
  split at h
  case h_1 hop =>
    cases h
    exact .assignment_none left hop
  case h_2 op hop =>
    simp only [bind_eq_ok, Prod.exists] at h
    obtain ⟨_, target, r, c₂, hr, h⟩ := h
    cases h
    exact .assignment left hop target (ih .assignment _ _ _ (yields_ok hr))

lemma conditional_derives {c c' : Cursor} {p : Phrase}
    (h : Grammar.conditional (d + 1) c = .ok (p, c')) :
    Derives (d + 1) .conditional c (.one p) c' := by
  simp only [Grammar.conditional, bind_eq_ok, Prod.exists] at h
  obtain ⟨t, c₁, ht, h⟩ := h
  have test := ih (.operators 1) _ _ _ (yields_ok ht)
  split at h
  case isTrue hq =>
    simp only [bind_eq_ok, Prod.exists, expect_eq_ok] at h
    obtain ⟨a, c₂, ha, _, ⟨colon, rfl⟩, b, c₃, hb, h⟩ := h
    cases h
    exact .conditional test hq (ih .assignment _ _ _ (yields_ok ha)) colon
      (ih .assignment _ _ _ (yields_ok hb))
  case isFalse hq =>
    cases h
    exact .conditional_none test (by simpa using hq)

lemma operators_derives {c c' : Cursor} {n : Nat} {p : Phrase}
    (h : Grammar.operators (d + 1) n c = .ok (p, c')) :
    Derives (d + 1) (.operators n) c (.one p) c' := by
  simp only [Grammar.operators, bind_eq_ok, Prod.exists] at h
  obtain ⟨l, c₁, hl, h⟩ := h
  exact .operators (ih .unary _ _ _ (yields_ok hl)) (ih (.operatorTail n l) _ _ _ (yields_ok h))

lemma operatorTail_derives {c c' : Cursor} {n : Nat} {l p : Phrase}
    (h : Grammar.operatorTail (d + 1) n l c = .ok (p, c')) :
    Derives (d + 1) (.operatorTail n l) c (.one p) c' := by
  simp only [Grammar.operatorTail] at h
  split at h
  case h_1 hop =>
    cases h
    exact .operatorTail_none hop
  case h_2 op hop =>
    split at h
    case isTrue weaker =>
      cases h
      exact .operatorTail_weaker hop weaker
    case isFalse binds =>
      simp only [bind_eq_ok, Prod.exists] at h
      obtain ⟨r, c₁, hr, h⟩ := h
      exact .operatorTail hop binds (ih (.operators (op.level + 1)) _ _ _ (yields_ok hr))
        (ih (.operatorTail n (op.node l r)) _ _ _ (yields_ok h))

lemma unary_derives {c c' : Cursor} {p : Phrase} (h : Grammar.unary (d + 1) c = .ok (p, c')) :
    Derives (d + 1) .unary c (.one p) c' := by
  simp only [Grammar.unary] at h
  split at h
  case h_1 op hop =>
    simp only [bind_eq_ok, Prod.exists] at h
    obtain ⟨a, c₁, ha, h⟩ := h
    cases h
    exact .unary hop (ih .unary _ _ _ (yields_ok ha))
  case h_2 hop =>
    split at h
    case h_1 op hupdate =>
      simp only [bind_eq_ok, Prod.exists] at h
      obtain ⟨a, c₁, ha, _, target, h⟩ := h
      cases h
      exact .unary_update hop hupdate (ih .unary _ _ _ (yields_ok ha)) target
    case h_2 hupdate => exact .unary_postfixed hop hupdate (ih .postfixed _ _ _ (yields_ok h))

omit ih in
/-- What may follow a chain of accesses. -/
lemma postfixed_of_chain {c c₁ c₂ c' : Cursor} {f a p : Phrase}
    (head : Derives d .head c (.one f) c₁) (chain : Derives d (.accesses true f) c₁ (.one a) c₂)
    (h : (if c₂.newlineBefore = true then .ok (a, c₂)
      else match updateOp? c₂.kind with
        | none => .ok (a, c₂)
        | some op => do
          checkTarget a
          .ok (⟨a.span.merge c₂.span, .updateExpression op false a⟩, c₂.advance)) =
      (.ok (p, c') : Result (Phrase × Cursor))) :
    Derives (d + 1) .postfixed c (.one p) c' := by
  split at h
  case isTrue newline =>
    cases h
    exact .postfixed_none head chain (.inl newline)
  case isFalse sameLine =>
    split at h
    case h_1 hop =>
      cases h
      exact .postfixed_none head chain (.inr hop)
    case h_2 op hop =>
      simp only [bind_eq_ok] at h
      obtain ⟨_, target, h⟩ := h
      cases h
      exact .postfixed head chain (by simpa using sameLine) hop target

lemma postfixed_derives {c c' : Cursor} {p : Phrase}
    (h : Grammar.postfixed (d + 1) c = .ok (p, c')) :
    Derives (d + 1) .postfixed c (.one p) c' := by
  simp only [Grammar.postfixed] at h
  split at h
  case isTrue word =>
    simp only [bind_eq_ok, Prod.exists] at h
    obtain ⟨f, c₁, hf, a, c₂, ha, h⟩ := h
    exact postfixed_of_chain (.head_construction word (ih .construction _ _ _ (yields_ok hf)))
      (ih (.accesses true f) _ _ _ (yields_ok ha)) h
  case isFalse word =>
    simp only [bind_eq_ok, Prod.exists] at h
    obtain ⟨f, c₁, hf, a, c₂, ha, h⟩ := h
    exact postfixed_of_chain
      (.head_primary (by simpa using word) (ih .primary _ _ _ (yields_ok hf)))
      (ih (.accesses true f) _ _ _ (yields_ok ha)) h

lemma accesses_derives {c c' : Cursor} {calls : Bool} {f p : Phrase}
    (h : Grammar.accesses (d + 1) calls f c = .ok (p, c')) :
    Derives (d + 1) (.accesses calls f) c (.one p) c' := by
  simp only [Grammar.accesses] at h
  split at h
  case isTrue call =>
    simp only [bind_eq_ok, Prod.exists, expect_eq_ok] at h
    obtain ⟨as, c₁, has, _, ⟨close, rfl⟩, h⟩ := h
    exact .accesses_call call (ih (.elements .rightParen) _ _ _ (yields_ok has)) close
      (ih (.accesses calls _) _ _ _ (yields_ok h))
  case isFalse call =>
    have call : (calls && c.at? .leftParen) = false := by simpa using call
    split at h
    case isTrue dot =>
      simp only [bind_eq_ok, Prod.exists] at h
      obtain ⟨n, c₁, hn, h⟩ := h
      exact .accesses_dot call dot hn (ih (.accesses calls _) _ _ _ (yields_ok h))
    case isFalse dot =>
      have dot : c.at? .dot = false := by simpa using dot
      split at h
      case isTrue bracket =>
        simp only [bind_eq_ok, Prod.exists, expect_eq_ok] at h
        obtain ⟨k, c₁, hk, _, ⟨close, rfl⟩, h⟩ := h
        exact .accesses_bracket call dot bracket (ih .assignment _ _ _ (yields_ok hk)) close
          (ih (.accesses calls _) _ _ _ (yields_ok h))
      case isFalse bracket =>
        cases h
        exact .accesses_none call dot (by simpa using bracket)

omit ih in
/-- What may follow the callee of a construction. -/
lemma construction_of_chain {c c₁ c₂ c' : Cursor} {f g p : Phrase}
    (head : Derives d .head c.advance (.one f) c₁)
    (chain : Derives d (.accesses false f) c₁ (.one g) c₂) (ih : Complete d)
    (h : (if c₂.at? .leftParen = true then do
        let (arguments, c₃) ← Grammar.elements d .rightParen c₂.advance
        let c₃ ← c₃.expect .rightParen
        .ok (⟨c₃.spanFrom c.span, .newExpression g arguments⟩, c₃)
      else .ok (⟨c₂.spanFrom c.span, .newExpression g []⟩, c₂)) =
      (.ok (p, c') : Result (Phrase × Cursor))) :
    Derives (d + 1) .construction c (.one p) c' := by
  split at h
  case isTrue paren =>
    simp only [bind_eq_ok, Prod.exists, expect_eq_ok] at h
    obtain ⟨as, c₃, has, _, ⟨close, rfl⟩, h⟩ := h
    cases h
    exact .construction head chain paren (ih (.elements .rightParen) _ _ _ (yields_ok has)) close
  case isFalse paren =>
    cases h
    exact .construction_none head chain (by simpa using paren)

lemma construction_derives {c c' : Cursor} {p : Phrase}
    (h : Grammar.construction (d + 1) c = .ok (p, c')) :
    Derives (d + 1) .construction c (.one p) c' := by
  simp only [Grammar.construction] at h
  split at h
  case isTrue word =>
    simp only [bind_eq_ok, Prod.exists] at h
    obtain ⟨f, c₁, hf, a, c₂, ha, h⟩ := h
    exact construction_of_chain
      (.head_construction word (ih .construction _ _ _ (yields_ok hf)))
      (ih (.accesses false f) _ _ _ (yields_ok ha)) ih h
  case isFalse word =>
    simp only [bind_eq_ok, Prod.exists] at h
    obtain ⟨f, c₁, hf, a, c₂, ha, h⟩ := h
    exact construction_of_chain
      (.head_primary (by simpa using word) (ih .primary _ _ _ (yields_ok hf)))
      (ih (.accesses false f) _ _ _ (yields_ok ha)) ih h

lemma elements_derives {c c' : Cursor} {closer : Punct} {ps : List Phrase}
    (h : Grammar.elements (d + 1) closer c = .ok (ps, c')) :
    Derives (d + 1) (.elements closer) c (.many ps) c' := by
  simp only [Grammar.elements] at h
  split at h
  case isTrue close =>
    cases h
    exact .elements_nil close
  case isFalse close =>
    have close : c.at? closer = false := by simpa using close
    simp only [bind_eq_ok, Prod.exists] at h
    obtain ⟨p, c₁, hp, h⟩ := h
    have first := ih .assignment _ _ _ (yields_ok hp)
    split at h
    case isTrue comma =>
      simp only [bind_eq_ok, Prod.exists] at h
      obtain ⟨rest, c₂, hrest, h⟩ := h
      cases h
      exact .elements_cons close first comma (ih (.elements closer) _ _ _ (yields_ok hrest))
    case isFalse comma =>
      cases h
      exact .elements_last close first (by simpa using comma)

lemma properties_derives {c c' : Cursor} {ps : List Phrase}
    (h : Grammar.properties (d + 1) c = .ok (ps, c')) :
    Derives (d + 1) .properties c (.many ps) c' := by
  simp only [Grammar.properties] at h
  split at h
  case isTrue close =>
    cases h
    exact .properties_nil close
  case isFalse close =>
    have close : c.at? .rightBrace = false := by simpa using close
    simp only [bind_eq_ok, Prod.exists, expect_eq_ok] at h
    obtain ⟨k, c₁, key, _, ⟨colon, rfl⟩, p, c₂, hp, h⟩ := h
    have value := ih .assignment _ _ _ (yields_ok hp)
    split at h
    case isTrue comma =>
      simp only [bind_eq_ok, Prod.exists] at h
      obtain ⟨rest, c₃, hrest, h⟩ := h
      cases h
      exact .properties_cons close key colon value comma (ih .properties _ _ _ (yields_ok hrest))
    case isFalse comma =>
      cases h
      exact .properties_last close key colon value (by simpa using comma)

lemma primary_derives {c c' : Cursor} {p : Phrase}
    (h : Grammar.primary (d + 1) c = .ok (p, c')) :
    Derives (d + 1) .primary c (.one p) c' := by
  have literal {l : Literal} (hl : literal? c.kind = some l)
      (h : (.ok (⟨c.span, .literal l⟩, c.advance) : Result (Phrase × Cursor)) = .ok (p, c')) :
      Derives (d + 1) .primary c (.one p) c' := by
    cases h
    exact .primary_literal hl
  simp only [Grammar.primary] at h
  split at h
  case h_1 x token => exact literal (by rw [token]; rfl) h
  case h_2 s token => exact literal (by rw [token]; rfl) h
  case h_3 token => exact literal (by rw [token]; rfl) h
  case h_4 token => exact literal (by rw [token]; rfl) h
  case h_5 token => exact literal (by rw [token]; rfl) h
  case h_6 name token =>
    simp only [bind_eq_ok, refuseArrow_eq_ok] at h
    obtain ⟨_, noArrow, h⟩ := h
    cases h
    exact .primary_identifier token noArrow
  case h_7 token =>
    simp only [bind_eq_ok, Prod.exists, expect_eq_ok, refuseArrow_eq_ok] at h
    obtain ⟨inner, c₁, hinner, _, ⟨close, rfl⟩, _, noArrow, h⟩ := h
    cases h
    exact .primary_paren token (ih .assignment _ _ _ (yields_ok hinner)) close noArrow
  case h_8 token =>
    simp only [bind_eq_ok, Prod.exists, expect_eq_ok] at h
    obtain ⟨items, c₁, hitems, _, ⟨close, rfl⟩, h⟩ := h
    cases h
    exact .primary_array token (ih (.elements .rightBracket) _ _ _ (yields_ok hitems)) close
  case h_9 token =>
    simp only [bind_eq_ok, Prod.exists, expect_eq_ok] at h
    obtain ⟨items, c₁, hitems, _, ⟨close, rfl⟩, h⟩ := h
    cases h
    exact .primary_object token (ih .properties _ _ _ (yields_ok hitems)) close
  case h_10 token =>
    split at h
    case h_1 name named =>
      simp only [bind_eq_ok, Prod.exists] at h
      obtain ⟨params, body, c₁, hrest, h⟩ := h
      cases h
      exact .primary_namedFunction token named
        (ih .functionRest _ _ _ (run_functionRest hrest))
    case h_2 anonymous =>
      simp only [bind_eq_ok, Prod.exists] at h
      obtain ⟨params, body, c₁, hrest, h⟩ := h
      cases h
      exact .primary_function token anonymous
        (ih .functionRest _ _ _ (run_functionRest hrest))
  case h_11 => cases h
  case h_12 => cases h

lemma parameters_derives {c c' : Cursor} {ps : List Phrase}
    (h : Grammar.parameters (d + 1) c = .ok (ps, c')) :
    Derives (d + 1) .parameters c (.many ps) c' := by
  simp only [Grammar.parameters] at h
  split at h
  case isTrue close =>
    cases h
    exact .parameters_nil close
  case isFalse close =>
    have close : c.at? .rightParen = false := by simpa using close
    simp only [bind_eq_ok, Prod.exists] at h
    obtain ⟨p, c₁, first, h⟩ := h
    split at h
    case isTrue comma =>
      simp only [bind_eq_ok, Prod.exists] at h
      obtain ⟨rest, c₂, hrest, h⟩ := h
      cases h
      exact .parameters_cons close first comma (ih .parameters _ _ _ (yields_ok hrest))
    case isFalse comma =>
      cases h
      exact .parameters_last close first (by simpa using comma)

lemma functionRest_derives {c c' : Cursor} {ps : List Phrase} {b : Phrase}
    (h : Grammar.functionRest (d + 1) c = .ok ((ps, b), c')) :
    Derives (d + 1) .functionRest c (.function ps b) c' := by
  simp only [Grammar.functionRest, bind_eq_ok, Prod.exists, expect_eq_ok] at h
  obtain ⟨_, ⟨paren, rfl⟩, params, c₁, hparams, _, ⟨close, rfl⟩, body, c₂, hbody, h⟩ := h
  cases h
  exact .functionRest paren (ih .parameters _ _ _ (yields_ok hparams)) close
    (ih (.block ⟨true, false⟩) _ _ _ (yields_ok hbody))

lemma block_derives {c c' : Cursor} {ctx : Context} {p : Phrase}
    (h : Grammar.block (d + 1) ctx c = .ok (p, c')) :
    Derives (d + 1) (.block ctx) c (.one p) c' := by
  simp only [Grammar.block, bind_eq_ok, Prod.exists, expect_eq_ok] at h
  obtain ⟨_, ⟨brace, rfl⟩, body, c₁, hbody, h⟩ := h
  cases h
  exact .block brace (ih (.blockBody ctx) _ _ _ (yields_ok hbody))

lemma blockBody_derives {c c' : Cursor} {ctx : Context} {ps : List Phrase}
    (h : Grammar.blockBody (d + 1) ctx c = .ok (ps, c')) :
    Derives (d + 1) (.blockBody ctx) c (.many ps) c' := by
  simp only [Grammar.blockBody] at h
  split at h
  case isTrue close =>
    cases h
    exact .blockBody_nil close
  case isFalse close =>
    split at h
    case isTrue => cases h
    case isFalse more =>
      simp only [bind_eq_ok, Prod.exists] at h
      obtain ⟨p, c₁, hp, rest, c₂, hrest, h⟩ := h
      cases h
      exact .blockBody_cons (by simpa using close) (by simpa using more)
        (ih (.statement ctx) _ _ _ (yields_ok hp)) (ih (.blockBody ctx) _ _ _ (yields_ok hrest))

omit ih in
/-- What may follow a declarator. -/
lemma declarators_of_initializer {c c₁ c₂ c' : Cursor} {n : Phrase} {o : Option Phrase}
    {ps : List Phrase} (name : bindingIdentifier c = .ok (n, c₁))
    (init : Derives d .initializer c₁ (.maybe o) c₂) (ih : Complete d)
    (h : (if c₂.at? .comma = true then do
        let (rest, c₃) ← Grammar.declarators d c₂.advance
        .ok (⟨c₂.spanFrom n.span, .variableDeclarator n o⟩ :: rest, c₃)
      else .ok ([⟨c₂.spanFrom n.span, .variableDeclarator n o⟩], c₂)) =
      (.ok (ps, c') : Result (List Phrase × Cursor))) :
    Derives (d + 1) .declarators c (.many ps) c' := by
  split at h
  case isTrue comma =>
    simp only [bind_eq_ok, Prod.exists] at h
    obtain ⟨rest, c₃, hrest, h⟩ := h
    cases h
    exact .declarators_cons name init comma (ih .declarators _ _ _ (yields_ok hrest))
  case isFalse comma =>
    cases h
    exact .declarators_last name init (by simpa using comma)

lemma declarators_derives {c c' : Cursor} {ps : List Phrase}
    (h : Grammar.declarators (d + 1) c = .ok (ps, c')) :
    Derives (d + 1) .declarators c (.many ps) c' := by
  simp only [Grammar.declarators, bind_eq_ok, Prod.exists] at h
  obtain ⟨n, c₁, name, h⟩ := h
  split at h
  case isTrue assign =>
    simp only [bind_eq_ok, Prod.exists] at h
    obtain ⟨p, c₂, hp, _, _, hok, h⟩ := h
    cases hok
    exact declarators_of_initializer name
      (.initializer assign (ih .assignment _ _ _ (yields_ok hp))) ih h
  case isFalse assign =>
    simp only [ok_bind] at h
    exact declarators_of_initializer name (.initializer_none (by simpa using assign)) ih h

lemma declaration_derives {c c' : Cursor} {kind : VarKind} {terminated : Bool} {p : Phrase}
    (h : Grammar.declaration (d + 1) kind terminated c = .ok (p, c')) :
    Derives (d + 1) (.declaration kind terminated) c (.one p) c' := by
  simp only [Grammar.declaration, bind_eq_ok, Prod.exists] at h
  obtain ⟨ps, c₁, hps, h⟩ := h
  have names := ih .declarators _ _ _ (yields_ok hps)
  cases terminated with
  | true =>
    simp only [if_true, bind_eq_ok] at h
    obtain ⟨c₂, stop, h⟩ := h
    cases h
    exact .declaration names stop
  | false =>
    simp only [Bool.false_eq_true, if_false, ok_bind] at h
    cases h
    exact .declaration names rfl

lemma parenthesized_derives {c c' : Cursor} {p : Phrase}
    (h : Grammar.parenthesized (d + 1) c = .ok (p, c')) :
    Derives (d + 1) .parenthesized c (.one p) c' := by
  simp only [Grammar.parenthesized, bind_eq_ok, Prod.exists, expect_eq_ok] at h
  obtain ⟨_, ⟨paren, rfl⟩, inner, c₁, hinner, _, ⟨close, rfl⟩, h⟩ := h
  cases h
  exact .parenthesized paren (ih .assignment _ _ _ (yields_ok hinner)) close

lemma optional_derives {c c' : Cursor} {closer : Punct} {o : Option Phrase}
    (h : Grammar.optional (d + 1) closer c = .ok (o, c')) :
    Derives (d + 1) (.optional closer) c (.maybe o) c' := by
  simp only [Grammar.optional] at h
  split at h
  case isTrue close =>
    cases h
    exact .optional_none close
  case isFalse close =>
    simp only [bind_eq_ok, Prod.exists] at h
    obtain ⟨p, c₁, hp, h⟩ := h
    cases h
    exact .optional (by simpa using close) (ih .assignment _ _ _ (yields_ok hp))

lemma forInit_derives {c c' : Cursor} {o : Option Phrase}
    (h : Grammar.forInit (d + 1) c = .ok (o, c')) :
    Derives (d + 1) .forInit c (.maybe o) c' := by
  have declared {kind : VarKind} (word : varKind? c.kind = some kind)
      (h : ∃ p c₁, Grammar.declaration d kind false c = .ok (p, c₁) ∧
        (.ok (some p, c₁) : Result (Option Phrase × Cursor)) = .ok (o, c')) :
      Derives (d + 1) .forInit c (.maybe o) c' := by
    obtain ⟨p, c₁, hp, h⟩ := h
    cases h
    exact .forInit_declaration word (ih (.declaration kind false) _ _ _ (yields_ok hp))
  simp only [Grammar.forInit] at h
  split at h
  case h_1 word =>
    exact declared (by rw [word]; rfl) (by simpa only [bind_eq_ok, Prod.exists] using h)
  case h_2 word =>
    exact declared (by rw [word]; rfl) (by simpa only [bind_eq_ok, Prod.exists] using h)
  case h_3 word =>
    exact declared (by rw [word]; rfl) (by simpa only [bind_eq_ok, Prod.exists] using h)
  case h_4 notVar notLet notConst =>
    refine .forInit ?_ (ih (.optional .semicolon) _ _ _ (yields_ok h))
    unfold varKind?
    split <;> simp_all

lemma forStatement_derives {c c' : Cursor} {ctx : Context} {p : Phrase}
    (h : Grammar.forStatement (d + 1) ctx c = .ok (p, c')) :
    Derives (d + 1) (.forStatement ctx) c (.one p) c' := by
  simp only [Grammar.forStatement, bind_eq_ok, Prod.exists, expect_eq_ok] at h
  obtain ⟨_, ⟨paren, rfl⟩, init, c₁, hinit, h⟩ := h
  split at h
  case isTrue => cases h
  case isFalse noIteration =>
    simp only [bind_eq_ok, Prod.exists, expect_eq_ok] at h
    obtain ⟨_, ⟨first, rfl⟩, test, c₂, htest, _, ⟨second, rfl⟩, update, c₃, hupdate, _,
      ⟨close, rfl⟩, body, c₄, hbody, h⟩ := h
    cases h
    exact .forStatement paren (ih .forInit _ _ _ (yields_ok hinit)) (by simpa using noIteration)
      first (ih (.optional .semicolon) _ _ _ (yields_ok htest)) second
      (ih (.optional .rightParen) _ _ _ (yields_ok hupdate)) close
      (ih (.statement { ctx with inLoop := true }) _ _ _ (yields_ok hbody))

lemma statement_derives {c c' : Cursor} {ctx : Context} {p : Phrase}
    (h : Grammar.statement (d + 1) ctx c = .ok (p, c')) :
    Derives (d + 1) (.statement ctx) c (.one p) c' := by
  by_cases expression : beginsExpression c.kind = true
  · rw [statement_of_expression expression] at h
    simp only [bind_eq_ok, Prod.exists] at h
    obtain ⟨e, c₁, he, c₂, stop, h⟩ := h
    cases h
    exact .statement_expression expression (ih .assignment _ _ _ (yields_ok he)) stop
  simp only [Grammar.statement] at h
  split at h
  case h_1 token => exact .statement_block token (ih (.block ctx) _ _ _ (yields_ok h))
  case h_2 token =>
    exact .statement_declaration (by rw [token]; rfl)
      (ih (.declaration .varKind true) _ _ _ (yields_ok h))
  case h_3 token =>
    exact .statement_declaration (by rw [token]; rfl)
      (ih (.declaration .letKind true) _ _ _ (yields_ok h))
  case h_4 token =>
    exact .statement_declaration (by rw [token]; rfl)
      (ih (.declaration .constKind true) _ _ _ (yields_ok h))
  case h_5 token =>
    simp only [bind_eq_ok, Prod.exists] at h
    obtain ⟨n, c₁, name, ps, b, c₂, hrest, h⟩ := h
    cases h
    exact .statement_function token name (ih .functionRest _ _ _ (run_functionRest hrest))
  case h_6 token =>
    simp only [bind_eq_ok, Prod.exists] at h
    obtain ⟨t, c₁, ht, s, c₂, hs, h⟩ := h
    have test := ih .parenthesized _ _ _ (yields_ok ht)
    have consequent := ih (.statement ctx) _ _ _ (yields_ok hs)
    split at h
    case isTrue word =>
      simp only [bind_eq_ok, Prod.exists] at h
      obtain ⟨a, c₃, ha, h⟩ := h
      cases h
      exact .statement_ifElse token test consequent word
        (ih (.statement ctx) _ _ _ (yields_ok ha))
    case isFalse word =>
      cases h
      exact .statement_if token test consequent (by simpa using word)
  case h_7 token => exact .statement_for token (ih (.forStatement ctx) _ _ _ (yields_ok h))
  case h_8 token =>
    simp only [bind_eq_ok, Prod.exists] at h
    obtain ⟨t, c₁, ht, b, c₂, hb, h⟩ := h
    cases h
    exact .statement_while token (ih .parenthesized _ _ _ (yields_ok ht))
      (ih (.statement { ctx with inLoop := true }) _ _ _ (yields_ok hb))
  case h_9 token =>
    split at h
    case isTrue => cases h
    case isFalse legal =>
      have legal : ctx.inFunction = true := by simpa using legal
      split at h
      case isTrue ends =>
        simp only [ok_bind, bind_eq_ok] at h
        obtain ⟨c₂, stop, h⟩ := h
        cases h
        exact .statement_return token legal (.result_none ends) stop
      case isFalse ends =>
        simp only [bind_eq_ok, Prod.exists] at h
        obtain ⟨o, c₁, ho, c₂, stop, h⟩ := h
        cases h
        exact .statement_return token legal
          (.result (by simpa using ends) (ih (.optional .semicolon) _ _ _ (yields_ok ho))) stop
  case h_10 token =>
    split at h
    case isTrue => cases h
    case isFalse sameLine =>
      simp only [bind_eq_ok, Prod.exists] at h
      obtain ⟨a, c₁, ha, c₂, stop, h⟩ := h
      cases h
      exact .statement_throw token (by simpa using sameLine)
        (ih .assignment _ _ _ (yields_ok ha)) stop
  case h_11 token =>
    split at h
    case isTrue => cases h
    case isFalse legal =>
      simp only [bind_eq_ok] at h
      obtain ⟨c₂, stop, h⟩ := h
      cases h
      exact .statement_break token (by simpa using legal) stop
  case h_12 token =>
    split at h
    case isTrue => cases h
    case isFalse legal =>
      simp only [bind_eq_ok] at h
      obtain ⟨c₂, stop, h⟩ := h
      cases h
      exact .statement_continue token (by simpa using legal) stop
  case h_13 token =>
    simp only [bind_eq_ok] at h
    obtain ⟨c₂, stop, h⟩ := h
    cases h
    exact .statement_debugger token stop
  case h_14 token =>
    cases h
    exact .statement_empty token
  case h_15 => cases h
  case h_16 =>
    refine absurd ?_ expression
    cases hk : c.kind with
    | keyword k => cases k <;> first | rfl | simp_all
    | punct p => cases p <;> first | rfl | simp_all
    | _ => first | rfl | simp_all

lemma programBody_derives {c c' : Cursor} {ps : List Phrase}
    (h : Grammar.programBody (d + 1) c = .ok (ps, c')) :
    Derives (d + 1) .programBody c (.many ps) c' := by
  simp only [Grammar.programBody] at h
  split at h
  case isTrue atEnd =>
    cases h
    exact .programBody_nil atEnd
  case isFalse more =>
    simp only [bind_eq_ok, Prod.exists] at h
    obtain ⟨p, c₁, hp, rest, c₂, hrest, h⟩ := h
    cases h
    exact .programBody_cons (by simpa using more)
      (ih (.statement ⟨false, false⟩) _ _ _ (yields_ok hp))
      (ih .programBody _ _ _ (yields_ok hrest))

lemma complete_succ : Complete (d + 1) := by
  intro g c y c' h
  cases g <;> simp only [Goal.run, yields_eq_ok] at h <;> obtain ⟨p, h, rfl⟩ := h
  case assignment => exact assignment_derives ih h
  case conditional => exact conditional_derives ih h
  case operators => exact operators_derives ih h
  case operatorTail => exact operatorTail_derives ih h
  case unary => exact unary_derives ih h
  case postfixed => exact postfixed_derives ih h
  case accesses => exact accesses_derives ih h
  case construction => exact construction_derives ih h
  case elements => exact elements_derives ih h
  case properties => exact properties_derives ih h
  case primary => exact primary_derives ih h
  case parameters => exact parameters_derives ih h
  case functionRest => exact functionRest_derives ih h
  case block => exact block_derives ih h
  case blockBody => exact blockBody_derives ih h
  case declarators => exact declarators_derives ih h
  case declaration => exact declaration_derives ih h
  case parenthesized => exact parenthesized_derives ih h
  case optional => exact optional_derives ih h
  case forInit => exact forInit_derives ih h
  case forStatement => exact forStatement_derives ih h
  case statement => exact statement_derives ih h
  case programBody => exact programBody_derives ih h
  -- These three are alternatives of their callers and take no depth of their own.
  case head =>
    split at h
    case isTrue word => exact .head_construction word (construction_derives ih h)
    case isFalse word => exact .head_primary (by simpa using word) (primary_derives ih h)
  case initializer =>
    split at h
    case isTrue assign =>
      simp only [bind_eq_ok, Prod.exists] at h
      obtain ⟨v, c₁, hv, h⟩ := h
      cases h
      exact .initializer assign (assignment_derives ih hv)
    case isFalse assign =>
      cases h
      exact .initializer_none (by simpa using assign)
  case result =>
    split at h
    case isTrue ends =>
      cases h
      exact .result_none ends
    case isFalse ends => exact .result (by simpa using ends) (optional_derives ih h)

end Complete

/-- Without depth nothing is found but what is not there. -/
lemma complete_zero : Complete 0 := by
  intro g c y c' h
  cases g <;> simp only [Goal.run, yields_eq_ok] at h <;> obtain ⟨p, h, rfl⟩ := h
  case head =>
    split at h <;> simp [Grammar.construction, Grammar.primary] at h
  case initializer =>
    split at h
    case isTrue =>
      simp only [bind_eq_ok, Prod.exists] at h
      obtain ⟨v, c₁, hv, -⟩ := h
      simp [Grammar.assignment] at hv
    case isFalse assign =>
      cases h
      exact .initializer_none (by simpa using assign)
  case result =>
    split at h
    case isTrue ends =>
      cases h
      exact .result_none ends
    case isFalse => simp [Grammar.optional] at h
  all_goals
    simp [Grammar.assignment, Grammar.conditional, Grammar.operators, Grammar.operatorTail,
      Grammar.unary, Grammar.postfixed, Grammar.accesses, Grammar.construction, Grammar.elements,
      Grammar.properties, Grammar.primary, Grammar.parameters, Grammar.functionRest,
      Grammar.block, Grammar.blockBody, Grammar.declarators, Grammar.declaration,
      Grammar.parenthesized, Grammar.optional, Grammar.forInit, Grammar.forStatement,
      Grammar.statement, Grammar.programBody] at h

lemma complete (d : Nat) : Complete d := by
  induction d with
  | zero => exact complete_zero
  | succ d ih => exact complete_succ ih

/-- A goal is met exactly when the grammar function of the goal says so. -/
theorem derives_iff {d : Nat} {g : Goal} {c c' : Cursor} {y : Yield} :
    Derives d g c y c' ↔ g.run d c = .ok (y, c') :=
  ⟨run_of_derives, complete d g c y c'⟩

/-- A whole program is a derivation of its statements. -/
theorem program_eq_ok {size : Nat} {tokens : List Token} {p : Phrase} :
    program size tokens = .ok p ↔
      ∃ body c, Derives (depthFor tokens.length) .programBody (.start tokens) (.many body) c ∧
        p = ⟨⟨0, size⟩, .program body⟩ := by
  simp only [program, bind_eq_ok, Prod.exists, Except.ok.injEq, derives_iff, Goal.run,
    yields_eq_ok, Yield.many.injEq, exists_eq_right]
  exact exists_congr fun body => exists_congr fun c => and_congr_right fun _ => eq_comm

end ScriptDebugger.Grammar
