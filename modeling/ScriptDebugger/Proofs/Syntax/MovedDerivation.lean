import ScriptDebugger.Proofs.Syntax.Moved

/-!
# Derivations of moved texts

A derivation within a text is one of the moved text, too, whatever closing brace
stands in the place of the end of input, and at any greater depth. It may begin
right behind a line break that the text alone does not have, since no phrase
looks at what stands before its first token.
-/

namespace ScriptDebugger

namespace TokenKind

/-- What ends the statements of a program or a block. -/
def endsBlock : TokenKind → Bool
  | endOfInput | punct .rightBrace => true
  | _ => false

/-- What an operand can begin with, unary operators before it included. -/
def beginsOperand : TokenKind → Bool
  | number _ | string _ | ident _ => true
  | keyword word =>
    match word with
    | .trueWord | .falseWord | .nullWord | .functionWord | .newWord | .typeofWord => true
    | _ => false
  | punct p =>
    match p with
    | .leftParen | .leftBracket | .leftBrace | .bang | .plus | .minus | .increment
    | .decrement => true
    | _ => false
  | reserved _ | endOfInput => false

end TokenKind

namespace Grammar

open Cursor

/-- Goals that are met by an operand, perhaps with operators around it. -/
def Goal.isOperand : Goal → Bool
  | .assignment | .conditional | .operators _ | .unary | .postfixed | .head | .primary => true
  | _ => false

section Tokens

variable {c c' : Cursor} {d : Nat} {g : Goal} {y : Yield}

lemma not_atEnd_of_kind_eq {k : TokenKind} (h : c.kind = k) (hk : k.isEndOfInput = false) :
    c.atEnd = false := by rw [Cursor.atEnd, h, hk]

lemma kind_of_atEnd (h : c.atEnd = true) : c.kind = .endOfInput := by
  cases hk : c.kind with
  | endOfInput => rfl
  | _ => rw [Cursor.atEnd, hk] at h; cases h

lemma not_atEnd_of_some {α : Type} {read : TokenKind → Option α} (none : read .endOfInput = none)
    {a : α} (h : read c.kind = some a) : c.atEnd = false := by
  cases more : c.atEnd with
  | false => rfl
  | true =>
    rw [kind_of_atEnd more, none] at h
    cases h

lemma not_atEnd_of_bindingIdentifier {n : Phrase} (h : bindingIdentifier c = .ok (n, c')) :
    c.atEnd = false := by
  simp only [bindingIdentifier] at h
  split at h
  case h_1 text hk => exact not_atEnd_of_kind_eq hk rfl
  case h_2 => cases h

lemma endsBlock_of_some {α : Type} {read : TokenKind → Option α} (atEnd : read .endOfInput = none)
    (atBrace : read (.punct .rightBrace) = none) {a : α} (h : read c.kind = some a) :
    c.kind.endsBlock = false := by
  cases hk : c.kind.endsBlock with
  | false => rfl
  | true =>
    simp only [TokenKind.endsBlock] at hk
    split at hk <;> simp_all

lemma not_atEnd_of_endsBlock (h : c.kind.endsBlock = false) : c.atEnd = false := by
  cases more : c.atEnd with
  | false => rfl
  | true =>
    rw [kind_of_atEnd more] at h
    cases h

lemma beginsOperand_of_some {α : Type} {read : TokenKind → Option α}
    (begins : ∀ k, k.beginsOperand = false → read k = none) {a : α} (h : read c.kind = some a) :
    c.kind.beginsOperand = true := by
  cases hk : c.kind.beginsOperand with
  | true => rfl
  | false =>
    rw [begins _ hk] at h
    cases h

lemma Derives.beginsOperand (h : Derives d g c y c') (hg : g.isOperand = true) :
    c.kind.beginsOperand = true := by
  induction h
  all_goals try cases hg
  case assignment_none ih => exact ih rfl
  case assignment ih _ => exact ih rfl
  case conditional_none ih => exact ih rfl
  case conditional ih _ _ => exact ih rfl
  case operators ih _ => exact ih rfl
  case unary op _ _ =>
    refine beginsOperand_of_some ?_ op
    intro k hk
    unfold unaryOp?
    split <;> first | rfl | cases hk
  case unary_update op _ _ _ =>
    refine beginsOperand_of_some ?_ op
    intro k hk
    unfold updateOp?
    split <;> first | rfl | cases hk
  case unary_postfixed ih => exact ih rfl
  case postfixed_none ih _ => exact ih rfl
  case postfixed ih _ => exact ih rfl
  case head_construction c _ _ word _ _ =>
    cases hk : c.kind <;> simp_all [Cursor.atKeyword?, TokenKind.isKeyword, TokenKind.beginsOperand]
  case head_primary ih => exact ih rfl
  case primary_literal token =>
    refine beginsOperand_of_some ?_ token
    intro k hk
    unfold literal?
    split <;> first | rfl | cases hk
  all_goals simp_all [TokenKind.beginsOperand]

/-- No operand begins where statements end. -/
lemma Derives.operand (h : Derives d g c y c') (hg : g.isOperand = true) :
    c.kind.endsBlock = false := by
  have begins := h.beginsOperand hg
  cases hk : c.kind.endsBlock with
  | false => rfl
  | true =>
    unfold TokenKind.endsBlock at hk
    split at hk <;> simp_all [TokenKind.beginsOperand]

/-- Most goals cannot be met at the end of input. -/
lemma Derives.not_atEnd (h : Derives d g c y c') (hg : g.consumes = true) : c.atEnd = false := by
  by_cases operand : g.isOperand = true
  · exact not_atEnd_of_endsBlock (h.operand operand)
  cases h with
  | construction_none head | construction head =>
    exact atEnd_of_advance (not_atEnd_of_endsBlock (head.operand rfl))
  | declaration names =>
    cases names with
    | declarators_last name | declarators_cons name =>
      exact atEnd_of_advance (not_atEnd_of_bindingIdentifier name)
  | forStatement paren => exact atEnd_of_advance (not_atEnd_of_at? paren)
  | statement_expression _ expression =>
    exact not_atEnd_of_endsBlock (expression.operand rfl)
  | _ =>
    first
    | exact absurd rfl operand
    | exact not_atEnd_of_at? (by assumption)
    | exact not_atEnd_of_some rfl (by assumption)
    | exact not_atEnd_of_kind_eq (by assumption) rfl
    | exact not_atEnd_of_bindingIdentifier (by assumption)
    | cases hg

/-- A program ends at the end of input. -/
lemma Derives.atEnd (h : Derives d g c y c') (hg : g = .programBody) : c'.atEnd = true := by
  induction h
  all_goals try cases hg
  case programBody_nil atEnd => exact atEnd
  case programBody_cons ih => exact ih rfl

/-- No statement begins with a closing brace. -/
lemma statement_not_at_rightBrace {ctx : Context} (h : Derives d (.statement ctx) c y c') :
    c.at? .rightBrace = false := by
  have closes (h : c.kind.endsBlock = false) : c.at? .rightBrace = false := by
    rw [Cursor.at?]
    cases hk : c.kind with
    | punct p =>
      rw [hk] at h
      cases p <;> first | rfl | cases h
    | _ => rfl
  cases h with
  | statement_expression token expression => exact closes (expression.operand rfl)
  | statement_declaration token => exact closes (endsBlock_of_some rfl rfl token)
  | statement_block token | statement_function token | statement_if token
    | statement_ifElse token | statement_for token | statement_while token
    | statement_return token | statement_throw token | statement_break token
    | statement_continue token | statement_debugger token | statement_empty token =>
    rw [Cursor.at?, token]
    rfl

/-- A body ends where its closing brace stands. -/
lemma Derives.at_rightBrace (h : Derives d g c y c')
    (hg : ∃ ctx, g = .blockBody ctx) : c'.at? .rightBrace = true := by
  induction h
  all_goals obtain ⟨ctx, hg⟩ := hg
  all_goals try cases hg
  case blockBody_nil close => exact close
  case blockBody_cons ih => exact ih ⟨_, rfl⟩

end Tokens

section Moving

variable {f : Nat → Nat} {tail : List Token} {k d : Nat} {g : Goal} {y : Yield}
  {c c' c₁ : Cursor}

/-- Where a goal may begin: what has no token of its own begins past another token. -/
structure Goal.Starts (f : Nat → Nat) (tail : List Token) (g : Goal) (c c' : Cursor) : Prop where
  facing : Facing f tail c c'
  beside : g.consumes = false → Beside f tail c c'

/-- The goal `g` is met in the moved text from `c'` on, as far as `c₁` in the text. -/
def Met (f : Nat → Nat) (tail : List Token) (d : Nat) (g : Goal) (y : Yield) (c' c₁ : Cursor) :
    Prop :=
  ∃ c₁', Beside f tail c₁ c₁' ∧ Derives d (g.move f) c' (y.move f) c₁'

/-- All derivations of depth `d` can be moved. -/
def Movable (f : Nat → Nat) (tail : List Token) (k d : Nat) : Prop :=
  ∀ {g c y c₁ c'}, Derives d g c y c₁ → g.Inner → g.Starts f tail c c' →
    Met f tail (k + d) g y c' c₁

/-- Goals that some depth is taken for; the others are alternatives of their callers. -/
def Goal.takesDepth : Goal → Bool
  | .head | .initializer | .result => false
  | _ => true

/-- All derivations of depth `d` for such goals can be moved. -/
def DeepMovable (f : Nat → Nat) (tail : List Token) (k d : Nat) : Prop :=
  ∀ {g c y c₁ c'}, g.takesDepth = true → Derives d g c y c₁ → g.Inner → g.Starts f tail c c' →
    Met f tail (k + d) g y c' c₁

lemma Goal.Starts.of_beside (h : Beside f tail c c') : g.Starts f tail c c' :=
  ⟨h.facing, fun _ => h⟩

lemma Goal.Starts.of_facing (h : Facing f tail c c') (hg : g.consumes = true) :
    g.Starts f tail c c' :=
  ⟨h, fun hg' => by rw [hg] at hg'; cases hg'⟩

lemma move_one (span : Span) (kind : NodeKind Phrase) :
    Yield.move f (.one ⟨span, kind⟩) = .one ⟨span.move f, kind.map (Phrase.move f)⟩ := by
  rw [Yield.move, Phrase.move_mk]

section Shallow

variable (closes : Closes tail) (ih : DeepMovable f tail k d)
include ih

/-- What a chain of accesses begins with takes no depth of its own. -/
lemma head_met (h : Derives d .head c y c₁) (hc : Goal.Starts f tail .head c c') :
    Met f tail (k + d) .head y c' c₁ := by
  have more := h.not_atEnd rfl
  have same : c'.atKeyword? .newWord = c.atKeyword? .newWord := by
    simp only [Cursor.atKeyword?, hc.facing.kind_eq more]
  cases h with
  | head_construction word rest =>
    obtain ⟨c₁', h₁, rest⟩ := ih rfl rest trivial (.of_facing hc.facing rfl)
    exact ⟨c₁', h₁, .head_construction (same.trans word) rest⟩
  | head_primary word rest =>
    obtain ⟨c₁', h₁, rest⟩ := ih rfl rest trivial (.of_facing hc.facing rfl)
    exact ⟨c₁', h₁, .head_primary (same.trans word) rest⟩

include closes in
/-- The value of a declarator takes no depth of its own. -/
lemma initializer_met (h : Derives d .initializer c y c₁)
    (hc : Goal.Starts f tail .initializer c c') : Met f tail (k + d) .initializer y c' c₁ := by
  have hc := hc.beside rfl
  have same := at?_eq closes hc.facing (p := .assign) (by decide)
  cases h with
  | initializer_none assign => exact ⟨c', hc, .initializer_none (same.trans assign)⟩
  | initializer assign value =>
    obtain ⟨c₁', h₁, value⟩ := ih rfl value trivial
      (.of_beside (hc.advance (not_atEnd_of_at? assign)))
    exact ⟨c₁', h₁, .initializer (same.trans assign) value⟩

include closes in
/-- What a `return` gives back takes no depth of its own. -/
lemma result_met (h : Derives d .result c y c₁) (hc : Goal.Starts f tail .result c c') :
    Met f tail (k + d) .result y c' c₁ := by
  have hc := hc.beside rfl
  have same := mayEnd_eq closes hc
  cases h with
  | result_none ends => exact ⟨c', hc, .result_none (same.trans ends)⟩
  | result ends rest =>
    obtain ⟨c₁', h₁, rest⟩ := ih rfl rest nofun (.of_beside hc)
    exact ⟨c₁', h₁, .result (same.trans ends) rest⟩

include closes in
lemma movable_of_deep : Movable f tail k d := by
  intro g c y c₁ c' h inner hc
  cases g with
  | head => exact head_met ih h hc
  | initializer => exact initializer_met closes ih h hc
  | result => exact result_met closes ih h hc
  | _ => exact ih rfl h inner hc

end Shallow

variable (closes : Closes tail) (mono : Monotone f) (ih : Movable f tail k d)
include ih closes mono

lemma assignment_met (h : Derives (d + 1) .assignment c y c₁)
    (hc : Goal.Starts f tail .assignment c c') : Met f tail (k + (d + 1)) .assignment y c' c₁ := by
  cases h with
  | assignment_none left op =>
    obtain ⟨c₁', h₁, left⟩ := ih left trivial (.of_facing hc.facing rfl)
    exact ⟨c₁', h₁, .assignment_none left ((h₁.facing.reads closes assignOp? rfl).trans op)⟩
  | assignment left op target right =>
    obtain ⟨c₁', h₁, left⟩ := ih left trivial (.of_facing hc.facing rfl)
    obtain ⟨c₂', h₂, right⟩ := ih right trivial
      (.of_beside (h₁.advance (not_atEnd_of_some rfl op)))
    refine ⟨c₂', h₂, ?_⟩
    rw [move_one, Span.move_merge mono, ← Phrase.span_move, ← Phrase.span_move]
    exact .assignment left ((h₁.facing.reads closes assignOp? rfl).trans op)
      (checkTarget_move target) right

lemma conditional_met (h : Derives (d + 1) .conditional c y c₁)
    (hc : Goal.Starts f tail .conditional c c') :
    Met f tail (k + (d + 1)) .conditional y c' c₁ := by
  cases h with
  | conditional_none test question =>
    obtain ⟨c₁', h₁, test⟩ := ih test trivial (.of_facing hc.facing rfl)
    exact ⟨c₁', h₁, .conditional_none test ((at?_eq closes h₁.facing (by decide)).trans question)⟩
  | conditional test question consequent colon alternate =>
    obtain ⟨c₁', h₁, test⟩ := ih test trivial (.of_facing hc.facing rfl)
    obtain ⟨c₂', h₂, consequent⟩ := ih consequent trivial
      (.of_beside (h₁.advance (not_atEnd_of_at? question)))
    obtain ⟨c₃', h₃, alternate⟩ := ih alternate trivial
      (.of_beside (h₂.advance (not_atEnd_of_at? colon)))
    refine ⟨c₃', h₃, ?_⟩
    rw [move_one, Span.move_merge mono, ← Phrase.span_move, ← Phrase.span_move]
    exact .conditional test ((at?_eq closes h₁.facing (by decide)).trans question) consequent
      ((at?_eq closes h₂.facing (by decide)).trans colon) alternate

omit closes mono in
lemma operators_met {n : Nat} (h : Derives (d + 1) (.operators n) c y c₁)
    (hc : Goal.Starts f tail (.operators n) c c') :
    Met f tail (k + (d + 1)) (.operators n) y c' c₁ := by
  cases h with
  | operators left rest =>
    obtain ⟨c₁', h₁, left⟩ := ih left trivial (.of_facing hc.facing rfl)
    obtain ⟨c₂', h₂, rest⟩ := ih rest trivial (.of_beside h₁)
    exact ⟨c₂', h₂, .operators left rest⟩

lemma operatorTail_met {n : Nat} {l : Phrase} (h : Derives (d + 1) (.operatorTail n l) c y c₁)
    (hc : Goal.Starts f tail (.operatorTail n l) c c') :
    Met f tail (k + (d + 1)) (.operatorTail n l) y c' c₁ := by
  have hc := hc.beside rfl
  have same := hc.facing.reads closes infix? rfl
  cases h with
  | operatorTail_none op => exact ⟨c', hc, .operatorTail_none (same.trans op)⟩
  | operatorTail_weaker op weaker => exact ⟨c', hc, .operatorTail_weaker (same.trans op) weaker⟩
  | @operatorTail _ _ _ _ o r _ _ _ op binds right rest =>
    obtain ⟨c₁', h₁, right⟩ := ih right trivial
      (.of_beside (hc.advance (not_atEnd_of_some rfl op)))
    obtain ⟨c₂', h₂, rest⟩ := ih rest trivial (.of_beside h₁)
    have node : (o.node l r).move f = o.node (l.move f) (r.move f) := by
      cases o <;>
        simp only [Infix.node, Phrase.move_mk, Span.move_merge mono, Phrase.span_move] <;> rfl
    rw [Goal.move, node] at rest
    exact ⟨c₂', h₂, .operatorTail (same.trans op) binds right rest⟩

lemma unary_met (h : Derives (d + 1) .unary c y c₁) (hc : Goal.Starts f tail .unary c c') :
    Met f tail (k + (d + 1)) .unary y c' c₁ := by
  have more := h.not_atEnd rfl
  have same := hc.facing.reads closes unaryOp? rfl
  have same' := hc.facing.reads closes updateOp? rfl
  cases h with
  | unary op argument =>
    obtain ⟨c₁', h₁, argument⟩ := ih argument trivial (.of_beside (hc.facing.advance more))
    refine ⟨c₁', h₁, ?_⟩
    rw [move_one, Span.move_merge mono, ← Phrase.span_move, ← hc.facing.span_eq more]
    exact .unary (same.trans op) argument
  | unary_update notUnary op argument target =>
    obtain ⟨c₁', h₁, argument⟩ := ih argument trivial (.of_beside (hc.facing.advance more))
    refine ⟨c₁', h₁, ?_⟩
    rw [move_one, Span.move_merge mono, ← Phrase.span_move, ← hc.facing.span_eq more]
    exact .unary_update (same.trans notUnary) (same'.trans op) argument (checkTarget_move target)
  | unary_postfixed notUnary notUpdate rest =>
    obtain ⟨c₁', h₁, rest⟩ := ih rest trivial (.of_facing hc.facing rfl)
    exact ⟨c₁', h₁, .unary_postfixed (same.trans notUnary) (same'.trans notUpdate) rest⟩

lemma postfixed_met (h : Derives (d + 1) .postfixed c y c₁)
    (hc : Goal.Starts f tail .postfixed c c') :
    Met f tail (k + (d + 1)) .postfixed y c' c₁ := by
  cases h with
  | postfixed_none head chain alone =>
    obtain ⟨c₁', h₁, head⟩ := ih head trivial (.of_facing hc.facing rfl)
    obtain ⟨c₂', h₂, chain⟩ := ih chain trivial (.of_beside h₁)
    refine ⟨c₂', h₂, .postfixed_none head chain ?_⟩
    have same := h₂.facing.reads closes updateOp? rfl
    cases more : c₁.atEnd with
    | false => exact alone.imp (h₂.newline more).trans same.trans
    | true =>
      have ends : c₁.kind = .endOfInput := kind_of_atEnd more
      exact .inr (same.trans (by rw [ends]; rfl))
  | postfixed head chain sameLine op target =>
    obtain ⟨c₁', h₁, head⟩ := ih head trivial (.of_facing hc.facing rfl)
    obtain ⟨c₂', h₂, chain⟩ := ih chain trivial (.of_beside h₁)
    have more := not_atEnd_of_some rfl op
    refine ⟨_, h₂.advance more, ?_⟩
    rw [move_one, Span.move_merge mono, ← Phrase.span_move, ← h₂.facing.span_eq more]
    exact .postfixed head chain ((h₂.newline more).trans sameLine)
      ((h₂.facing.reads closes updateOp? rfl).trans op) (checkTarget_move target)

lemma accesses_met {calls : Bool} {callee : Phrase}
    (h : Derives (d + 1) (.accesses calls callee) c y c₁)
    (hc : Goal.Starts f tail (.accesses calls callee) c c') :
    Met f tail (k + (d + 1)) (.accesses calls callee) y c' c₁ := by
  have hc := hc.beside rfl
  have paren := at?_eq closes hc.facing (p := .leftParen) (by decide)
  have point := at?_eq closes hc.facing (p := .dot) (by decide)
  have square := at?_eq closes hc.facing (p := .leftBracket) (by decide)
  cases h with
  | accesses_none call dot bracket =>
    exact ⟨c', hc, .accesses_none (by rw [paren, call]) (point.trans dot) (square.trans bracket)⟩
  | accesses_call call arguments close chain =>
    have here : c.at? .leftParen = true := by simp_all
    obtain ⟨c₁', h₁, arguments⟩ := ih arguments nofun
      (.of_beside (hc.advance (not_atEnd_of_at? here)))
    have past := h₁.advance (not_atEnd_of_at? close)
    obtain ⟨c₂', h₂, chain⟩ := ih chain trivial (.of_beside past)
    rw [Goal.move, Phrase.move_mk, past.spanFrom_eq mono, ← Phrase.span_move] at chain
    exact ⟨c₂', h₂, .accesses_call (by rw [paren, call]) arguments
      ((at?_eq closes h₁.facing (by decide)).trans close) chain⟩
  | accesses_dot call dot name chain =>
    obtain ⟨c₁', h₁, name⟩ := propertyName_move
      (hc.advance (not_atEnd_of_at? dot)).facing name
    obtain ⟨c₂', h₂, chain⟩ := ih chain trivial (.of_beside h₁)
    rw [Goal.move, Phrase.move_mk, h₁.spanFrom_eq mono, ← Phrase.span_move] at chain
    exact ⟨c₂', h₂, .accesses_dot (by rw [paren, call]) (point.trans dot) name chain⟩
  | accesses_bracket call dot bracket key close chain =>
    obtain ⟨c₁', h₁, key⟩ := ih key trivial
      (.of_beside (hc.advance (not_atEnd_of_at? bracket)))
    have past := h₁.advance (not_atEnd_of_at? close)
    obtain ⟨c₂', h₂, chain⟩ := ih chain trivial (.of_beside past)
    rw [Goal.move, Phrase.move_mk, past.spanFrom_eq mono, ← Phrase.span_move] at chain
    exact ⟨c₂', h₂, .accesses_bracket (by rw [paren, call]) (point.trans dot)
      (square.trans bracket) key ((at?_eq closes h₁.facing (by decide)).trans close) chain⟩

lemma construction_met (h : Derives (d + 1) .construction c y c₁)
    (hc : Goal.Starts f tail .construction c c') :
    Met f tail (k + (d + 1)) .construction y c' c₁ := by
  have more := h.not_atEnd rfl
  cases h with
  | construction_none head chain paren =>
    obtain ⟨c₁', h₁, head⟩ := ih head trivial (.of_beside (hc.facing.advance more))
    obtain ⟨c₂', h₂, chain⟩ := ih chain trivial (.of_beside h₁)
    refine ⟨c₂', h₂, ?_⟩
    rw [move_one, h₂.spanFrom_eq mono, ← hc.facing.span_eq more]
    exact .construction_none head chain ((at?_eq closes h₂.facing (by decide)).trans paren)
  | construction head chain paren arguments close =>
    obtain ⟨c₁', h₁, head⟩ := ih head trivial (.of_beside (hc.facing.advance more))
    obtain ⟨c₂', h₂, chain⟩ := ih chain trivial (.of_beside h₁)
    obtain ⟨c₃', h₃, arguments⟩ := ih arguments nofun
      (.of_beside (h₂.advance (not_atEnd_of_at? paren)))
    have past := h₃.advance (not_atEnd_of_at? close)
    refine ⟨_, past, ?_⟩
    rw [move_one, past.spanFrom_eq mono, ← hc.facing.span_eq more]
    exact .construction head chain ((at?_eq closes h₂.facing (by decide)).trans paren) arguments
      ((at?_eq closes h₃.facing (by decide)).trans close)

omit mono in
lemma elements_met {closer : Punct} (inner : closer ≠ .rightBrace)
    (h : Derives (d + 1) (.elements closer) c y c₁)
    (hc : Goal.Starts f tail (.elements closer) c c') :
    Met f tail (k + (d + 1)) (.elements closer) y c' c₁ := by
  have hc := hc.beside rfl
  have same := at?_eq closes hc.facing inner
  cases h with
  | elements_nil close => exact ⟨c', hc, .elements_nil (same.trans close)⟩
  | elements_last close first comma =>
    obtain ⟨c₁', h₁, first⟩ := ih first trivial (.of_beside hc)
    exact ⟨c₁', h₁, .elements_last (same.trans close) first
      ((at?_eq closes h₁.facing (by decide)).trans comma)⟩
  | elements_cons close first comma rest =>
    obtain ⟨c₁', h₁, first⟩ := ih first trivial (.of_beside hc)
    obtain ⟨c₂', h₂, rest⟩ := ih rest inner (.of_beside (h₁.advance (not_atEnd_of_at? comma)))
    exact ⟨c₂', h₂, .elements_cons (same.trans close) first
      ((at?_eq closes h₁.facing (by decide)).trans comma) rest⟩

omit closes ih in
lemma property_move {key : String} {p : Phrase} {span : Span} :
    Phrase.move f ⟨span.merge p.span, .property key p⟩ =
      ⟨(span.move f).merge (p.move f).span, .property key (p.move f)⟩ := by
  rw [Phrase.move_mk, Span.move_merge mono, ← Phrase.span_move]
  rfl

lemma properties_met (h : Derives (d + 1) .properties c y c₁)
    (hc : Goal.Starts f tail .properties c c') :
    Met f tail (k + (d + 1)) .properties y c' c₁ := by
  have hc := hc.beside rfl
  cases h with
  | properties_nil close =>
    have same : c'.at? .rightBrace = c.at? .rightBrace := by
      simp only [Cursor.at?, hc.facing.kind_eq (not_atEnd_of_at? close)]
    exact ⟨c', hc, .properties_nil (same.trans close)⟩
  | properties_last close key colon value comma =>
    obtain ⟨more, c₁', h₁, key⟩ := propertyKey_move hc.facing key
    have same : c'.at? .rightBrace = c.at? .rightBrace := by
      simp only [Cursor.at?, hc.facing.kind_eq more]
    obtain ⟨c₂', h₂, value⟩ := ih value trivial
      (.of_beside (h₁.advance (not_atEnd_of_at? colon)))
    refine ⟨c₂', h₂, ?_⟩
    rw [Yield.move, List.map_singleton, property_move mono, ← hc.facing.span_eq more]
    exact .properties_last (same.trans close) key
      ((at?_eq closes h₁.facing (by decide)).trans colon) value
      ((at?_eq closes h₂.facing (by decide)).trans comma)
  | properties_cons close key colon value comma rest =>
    obtain ⟨more, c₁', h₁, key⟩ := propertyKey_move hc.facing key
    have same : c'.at? .rightBrace = c.at? .rightBrace := by
      simp only [Cursor.at?, hc.facing.kind_eq more]
    obtain ⟨c₂', h₂, value⟩ := ih value trivial
      (.of_beside (h₁.advance (not_atEnd_of_at? colon)))
    obtain ⟨c₃', h₃, rest⟩ := ih rest trivial (.of_beside (h₂.advance (not_atEnd_of_at? comma)))
    refine ⟨c₃', h₃, ?_⟩
    rw [Yield.move, List.map_cons, property_move mono, ← hc.facing.span_eq more]
    exact .properties_cons (same.trans close) key
      ((at?_eq closes h₁.facing (by decide)).trans colon) value
      ((at?_eq closes h₂.facing (by decide)).trans comma) rest

lemma primary_met (h : Derives (d + 1) .primary c y c₁)
    (hc : Goal.Starts f tail .primary c c') : Met f tail (k + (d + 1)) .primary y c' c₁ := by
  have more := h.not_atEnd rfl
  have kind := hc.facing.kind_eq more
  have span := hc.facing.span_eq more
  have next := hc.facing.advance more
  cases h with
  | primary_literal token =>
    refine ⟨_, next, ?_⟩
    rw [move_one, ← span]
    exact .primary_literal (by rw [kind, token])
  | primary_identifier token noArrow =>
    refine ⟨_, next, ?_⟩
    rw [move_one, ← span]
    exact .primary_identifier (kind.trans token)
      ((at?_eq closes next.facing (by decide)).trans noArrow)
  | primary_paren token inner close noArrow =>
    obtain ⟨c₁', h₁, inner⟩ := ih inner trivial (.of_beside next)
    have past := h₁.advance (not_atEnd_of_at? close)
    exact ⟨_, past, .primary_paren (kind.trans token) inner
      ((at?_eq closes h₁.facing (by decide)).trans close)
      ((at?_eq closes past.facing (by decide)).trans noArrow)⟩
  | primary_array token items close =>
    obtain ⟨c₁', h₁, items⟩ := ih items nofun (.of_beside next)
    have past := h₁.advance (not_atEnd_of_at? close)
    refine ⟨_, past, ?_⟩
    rw [move_one, past.spanFrom_eq mono, ← span]
    exact .primary_array (kind.trans token) items
      ((at?_eq closes h₁.facing (by decide)).trans close)
  | primary_object token items close =>
    obtain ⟨c₁', h₁, items⟩ := ih items trivial (.of_beside next)
    have ends := not_atEnd_of_at? close
    have past := h₁.advance ends
    refine ⟨_, past, ?_⟩
    rw [move_one, past.spanFrom_eq mono, ← span]
    refine .primary_object (kind.trans token) items ?_
    rw [Cursor.at?, h₁.facing.kind_eq ends]
    exact close
  | primary_function token anonymous rest =>
    have ends := rest.not_atEnd rfl
    obtain ⟨c₁', h₁, rest⟩ := ih rest trivial (.of_beside next)
    refine ⟨c₁', h₁, ?_⟩
    rw [move_one, h₁.spanFrom_eq mono, ← span, NodeKind.map_functionExpression]
    exact .primary_function (kind.trans token)
      (fun name => by rw [next.facing.kind_eq ends]; exact anonymous name) rest
  | primary_namedFunction token named rest =>
    have ends := not_atEnd_of_kind_eq named rfl
    obtain ⟨c₁', h₁, rest⟩ := ih rest trivial (.of_beside (next.advance ends))
    refine ⟨c₁', h₁, ?_⟩
    rw [move_one, h₁.spanFrom_eq mono, ← span, NodeKind.map_functionExpression, Option.map_some,
      Phrase.move_mk, ← next.facing.span_eq ends]
    exact .primary_namedFunction (kind.trans token)
      ((next.facing.kind_eq ends).trans named) rest

omit mono in
lemma parameters_met (h : Derives (d + 1) .parameters c y c₁)
    (hc : Goal.Starts f tail .parameters c c') :
    Met f tail (k + (d + 1)) .parameters y c' c₁ := by
  have hc := hc.beside rfl
  have same := at?_eq closes hc.facing (p := .rightParen) (by decide)
  cases h with
  | parameters_nil close => exact ⟨c', hc, .parameters_nil (same.trans close)⟩
  | parameters_last close first comma =>
    obtain ⟨c₁', h₁, first⟩ := bindingIdentifier_move hc.facing first
    exact ⟨c₁', h₁, .parameters_last (same.trans close) first
      ((at?_eq closes h₁.facing (by decide)).trans comma)⟩
  | parameters_cons close first comma rest =>
    obtain ⟨c₁', h₁, first⟩ := bindingIdentifier_move hc.facing first
    obtain ⟨c₂', h₂, rest⟩ := ih rest trivial (.of_beside (h₁.advance (not_atEnd_of_at? comma)))
    exact ⟨c₂', h₂, .parameters_cons (same.trans close) first
      ((at?_eq closes h₁.facing (by decide)).trans comma) rest⟩

omit mono in
lemma functionRest_met (h : Derives (d + 1) .functionRest c y c₁)
    (hc : Goal.Starts f tail .functionRest c c') :
    Met f tail (k + (d + 1)) .functionRest y c' c₁ := by
  have same := at?_eq closes hc.facing (p := .leftParen) (by decide)
  cases h with
  | functionRest paren params close body =>
    obtain ⟨c₁', h₁, params⟩ := ih params trivial
      (.of_beside (hc.facing.advance (not_atEnd_of_at? paren)))
    obtain ⟨c₂', h₂, body⟩ := ih body trivial
      (.of_beside (h₁.advance (not_atEnd_of_at? close)))
    exact ⟨c₂', h₂, .functionRest (same.trans paren) params
      ((at?_eq closes h₁.facing (by decide)).trans close) body⟩

lemma block_met {ctx : Context} (h : Derives (d + 1) (.block ctx) c y c₁)
    (hc : Goal.Starts f tail (.block ctx) c c') :
    Met f tail (k + (d + 1)) (.block ctx) y c' c₁ := by
  have same := at?_eq closes hc.facing (p := .leftBrace) (by decide)
  have more := h.not_atEnd rfl
  cases h with
  | block brace body =>
    have ends := not_atEnd_of_at? (body.at_rightBrace ⟨ctx, rfl⟩)
    obtain ⟨c₁', h₁, body⟩ := ih body trivial (.of_beside (hc.facing.advance more))
    have past := h₁.advance ends
    refine ⟨_, past, ?_⟩
    rw [move_one, past.spanFrom_eq mono, ← hc.facing.span_eq more]
    exact .block (same.trans brace) body

omit closes mono in
lemma blockBody_met {ctx : Context} (h : Derives (d + 1) (.blockBody ctx) c y c₁)
    (hc : Goal.Starts f tail (.blockBody ctx) c c') :
    Met f tail (k + (d + 1)) (.blockBody ctx) y c' c₁ := by
  have hc := hc.beside rfl
  cases h with
  | blockBody_nil close =>
    refine ⟨c', hc, .blockBody_nil ?_⟩
    rw [Cursor.at?, hc.facing.kind_eq (not_atEnd_of_at? close)]
    exact close
  | blockBody_cons close more first rest =>
    have kind := hc.facing.kind_eq more
    obtain ⟨c₁', h₁, first⟩ := ih first trivial (.of_beside hc)
    obtain ⟨c₂', h₂, rest⟩ := ih rest trivial (.of_beside h₁)
    refine ⟨c₂', h₂, .blockBody_cons ?_ ?_ first rest⟩
    · rw [Cursor.at?, kind]
      exact close
    · rw [Cursor.atEnd, kind]
      exact more

omit closes ih in
lemma declarator_move (h : Beside f tail c c') {n : Phrase} {init : Option Phrase} :
    Phrase.move f ⟨c.spanFrom n.span, .variableDeclarator n init⟩ =
      ⟨c'.spanFrom (n.move f).span,
        .variableDeclarator (n.move f) (init.map (Phrase.move f))⟩ := by
  rw [Phrase.move_mk, h.spanFrom_eq mono, ← Phrase.span_move, NodeKind.map_variableDeclarator]

lemma declarators_met (h : Derives (d + 1) .declarators c y c₁)
    (hc : Goal.Starts f tail .declarators c c') :
    Met f tail (k + (d + 1)) .declarators y c' c₁ := by
  cases h with
  | declarators_last name init comma =>
    obtain ⟨c₁', h₁, name⟩ := bindingIdentifier_move hc.facing name
    obtain ⟨c₂', h₂, init⟩ := ih init trivial (.of_beside h₁)
    refine ⟨c₂', h₂, ?_⟩
    rw [Yield.move, List.map_singleton, declarator_move mono h₂]
    exact .declarators_last name init ((at?_eq closes h₂.facing (by decide)).trans comma)
  | declarators_cons name init comma rest =>
    obtain ⟨c₁', h₁, name⟩ := bindingIdentifier_move hc.facing name
    obtain ⟨c₂', h₂, init⟩ := ih init trivial (.of_beside h₁)
    obtain ⟨c₃', h₃, rest⟩ := ih rest trivial (.of_beside (h₂.advance (not_atEnd_of_at? comma)))
    refine ⟨c₃', h₃, ?_⟩
    rw [Yield.move, List.map_cons, declarator_move mono h₂]
    exact .declarators_cons name init ((at?_eq closes h₂.facing (by decide)).trans comma) rest

lemma declaration_met {kind : VarKind} {terminated : Bool}
    (h : Derives (d + 1) (.declaration kind terminated) c y c₁)
    (hc : Goal.Starts f tail (.declaration kind terminated) c c') :
    Met f tail (k + (d + 1)) (.declaration kind terminated) y c' c₁ := by
  have more := h.not_atEnd rfl
  cases h with
  | @declaration _ _ _ _ ps c₂ _ names stop =>
    obtain ⟨c₁', h₁, names⟩ := ih names trivial (.of_beside (hc.facing.advance more))
    obtain ⟨c₂', h₂, stop⟩ : ∃ c₂', Beside f tail c₁ c₂' ∧
        (if terminated then endStatement c₁' else .ok c₁') = .ok c₂' := by
      cases terminated with
      | true => exact endStatement_move closes h₁ stop
      | false =>
        cases stop
        exact ⟨c₁', h₁, rfl⟩
    refine ⟨c₂', h₂, ?_⟩
    rw [move_one, h₂.spanFrom_eq mono, ← hc.facing.span_eq more]
    exact .declaration names stop

omit mono in
lemma parenthesized_met (h : Derives (d + 1) .parenthesized c y c₁)
    (hc : Goal.Starts f tail .parenthesized c c') :
    Met f tail (k + (d + 1)) .parenthesized y c' c₁ := by
  have same := at?_eq closes hc.facing (p := .leftParen) (by decide)
  cases h with
  | parenthesized paren inner close =>
    obtain ⟨c₁', h₁, inner⟩ := ih inner trivial
      (.of_beside (hc.facing.advance (not_atEnd_of_at? paren)))
    exact ⟨_, h₁.advance (not_atEnd_of_at? close), .parenthesized (same.trans paren) inner
      ((at?_eq closes h₁.facing (by decide)).trans close)⟩

omit mono in
lemma optional_met {closer : Punct} (inner : closer ≠ .rightBrace)
    (h : Derives (d + 1) (.optional closer) c y c₁)
    (hc : Goal.Starts f tail (.optional closer) c c') :
    Met f tail (k + (d + 1)) (.optional closer) y c' c₁ := by
  have hc := hc.beside rfl
  have same := at?_eq closes hc.facing inner
  cases h with
  | optional_none close => exact ⟨c', hc, .optional_none (same.trans close)⟩
  | optional close inner =>
    obtain ⟨c₁', h₁, inner⟩ := ih inner trivial (.of_beside hc)
    exact ⟨c₁', h₁, .optional (same.trans close) inner⟩

omit mono in
lemma forInit_met (h : Derives (d + 1) .forInit c y c₁)
    (hc : Goal.Starts f tail .forInit c c') : Met f tail (k + (d + 1)) .forInit y c' c₁ := by
  have hc := hc.beside rfl
  have same := hc.facing.reads closes varKind? rfl
  cases h with
  | forInit_declaration word rest =>
    obtain ⟨c₁', h₁, rest⟩ := ih rest trivial (.of_beside hc)
    exact ⟨c₁', h₁, .forInit_declaration (same.trans word) rest⟩
  | forInit word rest =>
    obtain ⟨c₁', h₁, rest⟩ := ih rest nofun (.of_beside hc)
    exact ⟨c₁', h₁, .forInit (same.trans word) rest⟩

lemma forStatement_met {ctx : Context} (h : Derives (d + 1) (.forStatement ctx) c y c₁)
    (hc : Goal.Starts f tail (.forStatement ctx) c c') :
    Met f tail (k + (d + 1)) (.forStatement ctx) y c' c₁ := by
  have more := h.not_atEnd rfl
  have next := hc.facing.advance more
  cases h with
  | forStatement paren init noIteration first test second update close body =>
    obtain ⟨c₁', h₁, init⟩ := ih init trivial
      (.of_beside (next.advance (not_atEnd_of_at? paren)))
    obtain ⟨c₂', h₂, test⟩ := ih test nofun (.of_beside (h₁.advance (not_atEnd_of_at? first)))
    obtain ⟨c₃', h₃, update⟩ := ih update nofun
      (.of_beside (h₂.advance (not_atEnd_of_at? second)))
    obtain ⟨c₄', h₄, body⟩ := ih body trivial (.of_beside (h₃.advance (not_atEnd_of_at? close)))
    refine ⟨c₄', h₄, ?_⟩
    rw [move_one, h₄.spanFrom_eq mono, ← hc.facing.span_eq more, NodeKind.map_forStatement]
    refine .forStatement ((at?_eq closes next.facing (by decide)).trans paren) init ?_
      ((at?_eq closes h₁.facing (by decide)).trans first) test
      ((at?_eq closes h₂.facing (by decide)).trans second) update
      ((at?_eq closes h₃.facing (by decide)).trans close) body
    rw [h₁.facing.kind_eq (not_atEnd_of_at? first)]
    exact noIteration

lemma statement_met {ctx : Context} (h : Derives (d + 1) (.statement ctx) c y c₁)
    (hc : Goal.Starts f tail (.statement ctx) c c') :
    Met f tail (k + (d + 1)) (.statement ctx) y c' c₁ := by
  have more := h.not_atEnd rfl
  have kind := hc.facing.kind_eq more
  have span := hc.facing.span_eq more
  have next := hc.facing.advance more
  cases h with
  | statement_block token rest =>
    obtain ⟨c₁', h₁, rest⟩ := ih rest trivial (.of_facing hc.facing rfl)
    exact ⟨c₁', h₁, .statement_block (kind.trans token) rest⟩
  | statement_declaration token rest =>
    obtain ⟨c₁', h₁, rest⟩ := ih rest trivial (.of_facing hc.facing rfl)
    exact ⟨c₁', h₁, .statement_declaration (by rw [kind, token]) rest⟩
  | statement_function token name rest =>
    obtain ⟨c₁', h₁, name⟩ := bindingIdentifier_move next.facing name
    obtain ⟨c₂', h₂, rest⟩ := ih rest trivial (.of_beside h₁)
    refine ⟨c₂', h₂, ?_⟩
    rw [move_one, h₂.spanFrom_eq mono, ← span, NodeKind.map_functionDeclaration]
    exact .statement_function (kind.trans token) name rest
  | statement_if token test consequent noElse =>
    obtain ⟨c₁', h₁, test⟩ := ih test trivial (.of_beside next)
    obtain ⟨c₂', h₂, consequent⟩ := ih consequent trivial (.of_beside h₁)
    refine ⟨c₂', h₂, ?_⟩
    rw [move_one, h₂.spanFrom_eq mono, ← span]
    exact .statement_if (kind.trans token) test consequent
      ((atKeyword?_eq closes h₂.facing _).trans noElse)
  | statement_ifElse token test consequent else_ alternate =>
    obtain ⟨c₁', h₁, test⟩ := ih test trivial (.of_beside next)
    obtain ⟨c₂', h₂, consequent⟩ := ih consequent trivial (.of_beside h₁)
    have past := h₂.advance (not_atEnd_of_kind (TokenKind.isKeyword .elseWord) rfl else_)
    obtain ⟨c₃', h₃, alternate⟩ := ih alternate trivial (.of_beside past)
    refine ⟨c₃', h₃, ?_⟩
    rw [move_one, h₃.spanFrom_eq mono, ← span]
    exact .statement_ifElse (kind.trans token) test consequent
      ((atKeyword?_eq closes h₂.facing _).trans else_) alternate
  | statement_for token rest =>
    obtain ⟨c₁', h₁, rest⟩ := ih rest trivial (.of_facing hc.facing rfl)
    exact ⟨c₁', h₁, .statement_for (kind.trans token) rest⟩
  | statement_while token test body =>
    obtain ⟨c₁', h₁, test⟩ := ih test trivial (.of_beside next)
    obtain ⟨c₂', h₂, body⟩ := ih body trivial (.of_beside h₁)
    refine ⟨c₂', h₂, ?_⟩
    rw [move_one, h₂.spanFrom_eq mono, ← span]
    exact .statement_while (kind.trans token) test body
  | statement_return token legal argument stop =>
    obtain ⟨c₁', h₁, argument⟩ := ih argument trivial (.of_beside next)
    obtain ⟨c₂', h₂, stop⟩ := endStatement_move closes h₁ stop
    refine ⟨c₂', h₂, ?_⟩
    rw [move_one, h₂.spanFrom_eq mono, ← span, NodeKind.map_returnStatement]
    exact .statement_return (kind.trans token) rfl argument stop
  | statement_throw token sameLine argument stop =>
    have ends := argument.not_atEnd rfl
    obtain ⟨c₁', h₁, argument⟩ := ih argument trivial (.of_beside next)
    obtain ⟨c₂', h₂, stop⟩ := endStatement_move closes h₁ stop
    refine ⟨c₂', h₂, ?_⟩
    rw [move_one, h₂.spanFrom_eq mono, ← span]
    exact .statement_throw (kind.trans token) ((next.newline ends).trans sameLine) argument stop
  | statement_break token legal stop =>
    obtain ⟨c₁', h₁, stop⟩ := endStatement_move closes next stop
    refine ⟨c₁', h₁, ?_⟩
    rw [move_one, h₁.spanFrom_eq mono, ← span]
    exact .statement_break (kind.trans token) legal stop
  | statement_continue token legal stop =>
    obtain ⟨c₁', h₁, stop⟩ := endStatement_move closes next stop
    refine ⟨c₁', h₁, ?_⟩
    rw [move_one, h₁.spanFrom_eq mono, ← span]
    exact .statement_continue (kind.trans token) legal stop
  | statement_debugger token stop =>
    obtain ⟨c₁', h₁, stop⟩ := endStatement_move closes next stop
    refine ⟨c₁', h₁, ?_⟩
    rw [move_one, h₁.spanFrom_eq mono, ← span]
    exact .statement_debugger (kind.trans token) stop
  | statement_empty token =>
    refine ⟨_, next, ?_⟩
    rw [move_one, ← span]
    exact .statement_empty (kind.trans token)
  | statement_expression token expression stop =>
    obtain ⟨c₁', h₁, expression⟩ := ih expression trivial (.of_facing hc.facing rfl)
    obtain ⟨c₂', h₂, stop⟩ := endStatement_move closes h₁ stop
    refine ⟨c₂', h₂, ?_⟩
    rw [move_one, h₂.spanFrom_eq mono, ← span]
    exact .statement_expression (by rw [kind, token]) expression stop

lemma deepMovable_succ : DeepMovable f tail k (d + 1) := by
  intro g c y c₁ c' deep h inner hc
  cases g with
  | assignment => exact assignment_met closes mono ih h hc
  | conditional => exact conditional_met closes mono ih h hc
  | operators => exact operators_met ih h hc
  | operatorTail => exact operatorTail_met closes mono ih h hc
  | unary => exact unary_met closes mono ih h hc
  | postfixed => exact postfixed_met closes mono ih h hc
  | accesses => exact accesses_met closes mono ih h hc
  | construction => exact construction_met closes mono ih h hc
  | elements => exact elements_met closes ih inner h hc
  | properties => exact properties_met closes mono ih h hc
  | primary => exact primary_met closes mono ih h hc
  | parameters => exact parameters_met closes ih h hc
  | functionRest => exact functionRest_met closes ih h hc
  | block => exact block_met closes mono ih h hc
  | blockBody => exact blockBody_met ih h hc
  | declarators => exact declarators_met closes mono ih h hc
  | declaration => exact declaration_met closes mono ih h hc
  | parenthesized => exact parenthesized_met closes ih h hc
  | optional => exact optional_met closes ih inner h hc
  | forInit => exact forInit_met closes ih h hc
  | forStatement => exact forStatement_met closes mono ih h hc
  | statement => exact statement_met closes mono ih h hc
  | programBody => exact inner.elim
  | head => cases deep
  | initializer => cases deep
  | result => cases deep

omit ih in
theorem movable (k d : Nat) : Movable f tail k d := by
  induction d with
  | zero =>
    refine movable_of_deep closes ?_
    intro g c y c₁ c' deep h
    cases h <;> cases deep
  | succ d ih => exact movable_of_deep closes (deepMovable_succ closes mono ih)

omit ih in
/-- The statements of a program, moved, are those of a block. -/
theorem programBody_met (k : Nat) {ps : List Phrase}
    (h : Derives d .programBody c (.many ps) c₁) (hc : Facing f tail c c') :
    ∃ c₁', c₁'.tokens = tail ∧
      Derives (k + d) (.blockBody ⟨true, false⟩) c' (.many (ps.map (Phrase.move f))) c₁' := by
  induction d generalizing ps c c' with
  | zero => cases h
  | succ d ihd =>
    cases h with
    | programBody_nil atEnd =>
      cases hc with
      | atEnd last tokens ends moved =>
        obtain ⟨brace, rest, rfl, hb⟩ := closes
        refine ⟨c', moved, .blockBody_nil ?_⟩
        rw [Cursor.at?, kind_of_tokens moved, hb]
        rfl
      | token t t' us last tokens more =>
        rw [Cursor.atEnd, kind_of_tokens tokens, more] at atEnd
        cases atEnd
    | programBody_cons more first rest =>
      have kind := hc.kind_eq more
      obtain ⟨c₂', h₂, first'⟩ := movable closes mono k d first trivial (.of_facing hc rfl)
      obtain ⟨c₃', tokens, rest⟩ := ihd rest h₂.facing
      refine ⟨c₃', tokens, .blockBody_cons ?_ ?_ first' rest⟩
      · rw [Cursor.at?, kind]
        exact statement_not_at_rightBrace first
      · rw [Cursor.atEnd, kind]
        exact more

end Moving

end Grammar

end ScriptDebugger
