import Mathlib.Order.MinMax
import ScriptDebugger.Proofs.Syntax.Derivation
import ScriptDebugger.Proofs.Syntax.Numbering
import ScriptDebugger.Proofs.Token.Moved

/-!
# Phrases of a text inside another

A function that keeps the order of offsets moves the spans of phrases as it moves
those of tokens. So what can be parsed at the end of a text can be parsed before a
closing brace as well, with all spans moved (`Derives.move`); the brace ends a
statement as the end of input does.
-/

namespace ScriptDebugger

variable {f : Nat → Nat}

lemma Span.move_merge (mono : Monotone f) (a b : Span) :
    (a.merge b).move f = (a.move f).merge (b.move f) := by
  simp only [Span.merge, Span.move, mono.map_min, mono.map_max]

namespace NodeKind

variable {α β γ : Type} [Inhabited β]

/-- The same kind of node with the images of its children. -/
def map (f : α → β) (kind : NodeKind α) : NodeKind β := kind.fill (kind.children.map f)

variable (f : α → β)

lemma popOption_map (o : Option α) (cs : List β) :
    popOption o (o.toList.map f ++ cs) = (o.map f, cs) := by
  cases o <;> rfl

lemma map_variableDeclarator (name : α) (init : Option α) :
    (variableDeclarator name init).map f = variableDeclarator (f name) (init.map f) := by
  cases init <;> rfl

lemma map_functionDeclaration (name : α) (params : List α) (body : α) :
    (functionDeclaration name params body).map f =
      functionDeclaration (f name) (params.map f) (f body) := by
  simp [map, fill, children, pop]

lemma map_functionExpression (name : Option α) (params : List α) (body : α) :
    (functionExpression name params body).map f =
      functionExpression (name.map f) (params.map f) (f body) := by
  simp [map, fill, children, pop, popOption_map]

lemma map_forStatement (init test update : Option α) (body : α) :
    (forStatement init test update body).map f =
      forStatement (init.map f) (test.map f) (update.map f) (f body) := by
  cases init <;> cases test <;> cases update <;> rfl

lemma map_returnStatement (argument : Option α) :
    (returnStatement argument).map f = returnStatement (argument.map f) := by
  cases argument <;> rfl

end NodeKind

namespace Phrase

/-- The same phrase with all spans moved. -/
def move (f : Nat → Nat) (p : Phrase) : Phrase :=
  ⟨p.span.move f, p.kind.fill (p.children.attach.map fun c => move f c.1)⟩
  termination_by sizeOf p
  decreasing_by exact sizeOf_lt_of_mem c.2

lemma move_mk (f : Nat → Nat) (span : Span) (kind : NodeKind Phrase) :
    move f ⟨span, kind⟩ = ⟨span.move f, kind.map (move f)⟩ := by
  rw [move, NodeKind.map]
  simp [Phrase.kind, Phrase.span, Phrase.children]

lemma span_move (p : Phrase) : (p.move f).span = p.span.move f := by
  obtain ⟨span, kind⟩ := p
  rw [move_mk]
  rfl

lemma kind_move (p : Phrase) : (p.move f).kind = p.kind.map (move f) := by
  obtain ⟨span, kind⟩ := p
  rw [move_mk]
  rfl

end Phrase

namespace Grammar

def Context.inside (ctx : Context) : Context := { ctx with inFunction := true }

/-- The same goal within a function, for a moved text. -/
def Goal.move (f : Nat → Nat) : Goal → Goal
  | .operatorTail level left => .operatorTail level (left.move f)
  | .accesses calls callee => .accesses calls (callee.move f)
  | .block ctx => .block ctx.inside
  | .blockBody ctx => .blockBody ctx.inside
  | .forStatement ctx => .forStatement ctx.inside
  | .statement ctx => .statement ctx.inside
  | g => g

def Yield.move (f : Nat → Nat) : Yield → Yield
  | .one p => .one (p.move f)
  | .many ps => .many (ps.map (Phrase.move f))
  | .maybe o => .maybe (o.map (Phrase.move f))
  | .function params body => .function (params.map (Phrase.move f)) (body.move f)

/-- Goals that are not met without a token. -/
def Goal.consumes : Goal → Bool
  | .operatorTail .. | .accesses .. | .elements _ | .properties | .parameters | .blockBody _
  | .initializer | .optional _ | .forInit | .result | .programBody => false
  | _ => true

/-- Goals that a closing brace may follow. -/
def Goal.Inner : Goal → Prop
  | .elements closer | .optional closer => closer ≠ .rightBrace
  | .programBody => False
  | _ => True

end Grammar

namespace Cursor

/-- What a text may stand before in place of the end of input. -/
def Closes (tail : List Token) : Prop :=
  ∃ brace rest, tail = brace :: rest ∧ brace.kind = .punct .rightBrace

/-- The cursor `c` is at the end of its text, or the other one is at the same token of the moved
text, which `tail` follows. -/
inductive Facing (f : Nat → Nat) (tail : List Token) (c c' : Cursor) : Prop
  | atEnd (last : Token) (tokens : c.tokens = [last]) (ends : last.kind.isEndOfInput = true)
      (moved : c'.tokens = tail)
  | token (t t' : Token) (us : List Token) (last : Token) (tokens : c.tokens = t :: (us ++ [last]))
      (more : t.kind.isEndOfInput = false) (inner : ∀ u ∈ us, u.kind.isEndOfInput = false)
      (ends : last.kind.isEndOfInput = true)
      (moved : c'.tokens = t' :: (us.map (Token.move f) ++ tail)) (kind : t'.kind = t.kind)
      (span : t'.span = t.span.move f)

/-- The same with tokens before, so that a line break before the token at hand is one of the
text. -/
structure Beside (f : Nat → Nat) (tail : List Token) (c c' : Cursor) : Prop where
  facing : Facing f tail c c'
  lastStop : c'.lastStop = f c.lastStop
  newline : c.atEnd = false → c'.newlineBefore = c.newlineBefore

variable {tail : List Token} {c c' : Cursor}

lemma kind_of_tokens {t : Token} {ts : List Token} (h : c.tokens = t :: ts) : c.kind = t.kind := by
  simp only [kind, current, h]

lemma advance_of_tokens {t : Token} {ts : List Token} (h : c.tokens = t :: ts)
    (more : t.kind.isEndOfInput = false) :
    c.advance = { tokens := ts, lastStop := t.span.stop } := by
  simp only [advance, h, more]
  rfl

lemma advance_of_atEnd (h : c.atEnd = true) : c.advance = c := by
  simp only [atEnd, kind, current, advance] at h ⊢
  cases hc : c.tokens with
  | nil => rfl
  | cons t ts =>
    rw [hc] at h
    simp only [h, if_true]

lemma atEnd_of_advance (h : c.advance.atEnd = false) : c.atEnd = false := by
  cases hc : c.atEnd with
  | false => rfl
  | true => rw [advance_of_atEnd hc, hc] at h; exact h

namespace Facing

lemma kind_eq (h : Facing f tail c c') (more : c.atEnd = false) : c'.kind = c.kind := by
  cases h with
  | atEnd last tokens ends moved =>
    rw [Cursor.atEnd, kind_of_tokens tokens, ends] at more
    cases more
  | token t t' us last tokens _ inner ends moved kind span =>
    rw [kind_of_tokens tokens, kind_of_tokens moved, kind]

lemma span_eq (h : Facing f tail c c') (more : c.atEnd = false) :
    c'.span = c.span.move f := by
  cases h with
  | atEnd last tokens ends moved =>
    rw [Cursor.atEnd, kind_of_tokens tokens, ends] at more
    cases more
  | token t t' us last tokens _ inner ends moved kind span =>
    simp only [Cursor.span, current, tokens, moved, span]

/-- What does not tell a closing brace from the end of input reads the same. -/
lemma reads {α : Type} (closes : Closes tail) (h : Facing f tail c c') (read : TokenKind → α)
    (same : read (.punct .rightBrace) = read .endOfInput) : read c'.kind = read c.kind := by
  cases h with
  | atEnd last tokens ends moved =>
    obtain ⟨brace, rest, rfl, hb⟩ := closes
    have kind : last.kind = .endOfInput := by
      cases hk : last.kind <;> rw [hk] at ends <;> first | rfl | cases ends
    rw [kind_of_tokens tokens, kind_of_tokens moved, hb, kind, same]
  | token t t' us last tokens _ inner ends moved kind span =>
    rw [kind_of_tokens tokens, kind_of_tokens moved, kind]

/-- Past a token, line breaks are those of the text. -/
lemma advance (h : Facing f tail c c') (more : c.atEnd = false) :
    Beside f tail c.advance c'.advance := by
  cases h with
  | atEnd last tokens ends moved =>
    rw [Cursor.atEnd, kind_of_tokens tokens, ends] at more
    cases more
  | token t t' us last tokens inside inner ends moved kind span =>
    rw [advance_of_tokens tokens inside, advance_of_tokens moved (by rw [kind, inside])]
    refine ⟨?_, ?_, ?_⟩
    · cases us with
      | nil => exact .atEnd last rfl ends rfl
      | cons u us =>
        obtain ⟨first, inner⟩ := List.forall_mem_cons.mp inner
        exact .token u (u.move f) us last rfl first inner ends rfl rfl rfl
    · dsimp only
      rw [span]
      rfl
    · cases us with
      | nil => simp [Cursor.atEnd, Cursor.kind, current, ends]
      | cons u us => exact fun _ => rfl

end Facing

lemma not_atEnd_of_kind (read : TokenKind → Bool) (none : read .endOfInput = false)
    (h : read c.kind = true) : c.atEnd = false := by
  cases hk : c.kind with
  | endOfInput =>
    rw [hk, none] at h
    cases h
  | _ => rw [Cursor.atEnd, hk]; rfl

lemma not_atEnd_of_at? {p : Punct} (h : c.at? p = true) : c.atEnd = false :=
  not_atEnd_of_kind (TokenKind.isPunct p) rfl h

namespace Beside

lemma spanFrom_eq (mono : Monotone f) (h : Beside f tail c c') (s : Span) :
    (c.spanFrom s).move f = c'.spanFrom (s.move f) := by
  simp only [Cursor.spanFrom, Span.move, h.lastStop, mono.map_max]

lemma advance (h : Beside f tail c c') (more : c.atEnd = false) :
    Beside f tail c.advance c'.advance := h.facing.advance more

end Beside

end Cursor

namespace Grammar

open Cursor

variable {tail : List Token} {c c' c₁ : Cursor}

section Closes

variable (closes : Closes tail)
include closes

lemma at?_eq (h : Facing f tail c c') {p : Punct} (hp : p ≠ .rightBrace) :
    c'.at? p = c.at? p :=
  h.reads closes (TokenKind.isPunct p) (by cases p <;> first | rfl | exact absurd rfl hp)

lemma atKeyword?_eq (h : Facing f tail c c') (k : Keyword) : c'.atKeyword? k = c.atKeyword? k :=
  h.reads closes (TokenKind.isKeyword k) rfl

lemma mayEnd_eq (h : Beside f tail c c') : mayEnd c' = mayEnd c := by
  cases more : c.atEnd with
  | false =>
    have brace : c'.at? .rightBrace = c.at? .rightBrace := by
      simp only [Cursor.at?, h.facing.kind_eq more]
    have end' : c'.atEnd = c.atEnd := by simp only [Cursor.atEnd, h.facing.kind_eq more]
    simp only [mayEnd, brace, end', h.newline more]
  | true =>
    cases h.facing with
    | atEnd last tokens ends moved =>
      obtain ⟨brace, rest, rfl, hb⟩ := closes
      simp [mayEnd, more, Cursor.at?, kind_of_tokens moved, hb, TokenKind.isPunct]
    | token t t' us last tokens inside =>
      rw [Cursor.atEnd, kind_of_tokens tokens, inside] at more
      cases more

lemma endStatement_move (h : Beside f tail c c') (stop : endStatement c = .ok c₁) :
    ∃ c₁', Beside f tail c₁ c₁' ∧ endStatement c' = .ok c₁' := by
  simp only [endStatement] at stop ⊢
  rw [at?_eq closes h.facing (by decide), mayEnd_eq closes h]
  split at stop
  case isTrue semicolon =>
    cases stop
    exact ⟨_, h.advance (not_atEnd_of_at? semicolon), by simp only [semicolon, if_true]⟩
  case isFalse semicolon =>
    split at stop
    case isTrue ends =>
      cases stop
      exact ⟨c', h, by simp only [semicolon, ends, if_true, if_false, Bool.false_eq_true]⟩
    case isFalse =>
      simp only [refuseArrow] at stop
      split at stop <;> cases stop

end Closes

lemma bindingIdentifier_move (h : Facing f tail c c') {n : Phrase}
    (name : bindingIdentifier c = .ok (n, c₁)) :
    ∃ c₁', Beside f tail c₁ c₁' ∧ bindingIdentifier c' = .ok (n.move f, c₁') := by
  simp only [bindingIdentifier] at name ⊢
  split at name
  case h_1 text hk =>
    have more : c.atEnd = false := by rw [Cursor.atEnd, hk]; rfl
    cases name
    refine ⟨_, h.advance more, ?_⟩
    rw [h.kind_eq more, hk, h.span_eq more, Phrase.move_mk]
    rfl
  case h_2 => cases name

lemma propertyName_move (h : Facing f tail c c') {n : Phrase}
    (name : propertyName c = .ok (n, c₁)) :
    ∃ c₁', Beside f tail c₁ c₁' ∧ propertyName c' = .ok (n.move f, c₁') := by
  simp only [propertyName] at name ⊢
  split at name
  case h_3 => cases name
  all_goals
    rename_i text hk
    have more : c.atEnd = false := by rw [Cursor.atEnd, hk]; rfl
    cases name
    refine ⟨_, h.advance more, ?_⟩
    rw [h.kind_eq more, hk, h.span_eq more, Phrase.move_mk]
    rfl

lemma propertyKey_move (h : Facing f tail c c') {k : String}
    (key : propertyKey c = .ok (k, c₁)) :
    c.atEnd = false ∧ ∃ c₁', Beside f tail c₁ c₁' ∧ propertyKey c' = .ok (k, c₁') := by
  simp only [propertyKey] at key ⊢
  split at key
  case h_5 => cases key
  all_goals
    rename_i text hk
    have more : c.atEnd = false := by rw [Cursor.atEnd, hk]; rfl
    cases key
    exact ⟨more, _, h.advance more, by rw [h.kind_eq more, hk]⟩

lemma checkTarget_move {p : Phrase} (target : checkTarget p = .ok ()) :
    checkTarget (p.move f) = .ok () := by
  simp only [checkTarget, Phrase.kind_move] at target ⊢
  split at target
  case h_1 name hk => rw [hk]; rfl
  case h_2 object key computed hk => rw [hk]; rfl
  case h_3 => cases target

end Grammar

end ScriptDebugger
