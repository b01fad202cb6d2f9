import ScriptDebugger.Proofs.Syntax.Depth
import ScriptDebugger.Proofs.Syntax.Expression

/-!
# Operands at the cursor

An operand of some level is read up to what cannot go on with it: `Operand` says
this for the search at each level. Where a chain of accesses or a row of
operators may still go on, it says that whatever is read from there on is read
from the start of the operand. What is read at one level is read at all lower
ones (`Operand.loosen`).
-/

namespace ScriptDebugger

namespace Cursor

/-- The tokens between two cursors are of the given kinds and stand on one line. -/
def Passes : List TokenKind → Cursor → Cursor → Prop
  | [], c, c' => c = c'
  | k :: ks, c, c' => c.kind = k ∧ c.newlineBefore = false ∧ Passes ks c.advance c'

@[simp] lemma passes_nil {c c' : Cursor} : Passes [] c c' ↔ c = c' := Iff.rfl

@[simp] lemma passes_cons {k : TokenKind} {ks : List TokenKind} {c c' : Cursor} :
    Passes (k :: ks) c c' ↔ c.kind = k ∧ c.newlineBefore = false ∧ Passes ks c.advance c' := Iff.rfl

@[simp] lemma passes_append {ks ls : List TokenKind} {c c' : Cursor} :
    Passes (ks ++ ls) c c' ↔ ∃ c₁, Passes ks c c₁ ∧ Passes ls c₁ c' := by
  induction ks generalizing c with
  | nil => simp
  | cons k ks ih => simp only [List.cons_append, passes_cons, ih]; grind

lemma passes_of_tokens {ts rest : List Token} (sameLine : ∀ t ∈ ts, t.newlineBefore = false)
    (inside : ∀ t ∈ ts, t.kind.isEndOfInput = false) (stop : Nat) :
    ∃ stop', Passes (ts.map Token.kind) ⟨ts ++ rest, stop⟩ ⟨rest, stop'⟩ := by
  induction ts generalizing stop with
  | nil => exact ⟨stop, rfl⟩
  | cons t ts ih =>
    obtain ⟨first, sameLine⟩ := List.forall_mem_cons.mp sameLine
    obtain ⟨here, inside⟩ := List.forall_mem_cons.mp inside
    obtain ⟨stop', h⟩ := ih sameLine inside t.span.stop
    refine ⟨stop', rfl, first, ?_⟩
    rw [advance_of_tokens rfl here]
    exact h

lemma kind_of_at? {c : Cursor} {p : Punct} (h : c.at? p = true) : c.kind = .punct p := by
  rw [at?] at h
  cases hk : c.kind with
  | punct q =>
    rw [hk] at h
    rw [eq_of_beq h]
  | _ =>
    rw [hk] at h
    cases h

lemma at?_of_kind {c : Cursor} {p : Punct} (h : c.kind = .punct p) : c.at? p = true := by
  rw [at?, h]
  exact beq_self_eq_true p

lemma not_at?_of_kind {c : Cursor} {p q : Punct} (h : c.kind = .punct q) (ne : q ≠ p) :
    c.at? p = false := by
  rw [at?, h]
  exact beq_false_of_ne ne.symm

end Cursor

/-- The level of the expression that a token makes of an operand before it; 0 if the operand
ends there. -/
def TokenKind.goesOn : TokenKind → Nat
  | .punct p =>
    match p with
    | .assign | .plusAssign | .minusAssign | .starAssign | .slashAssign | .percentAssign => 1
    | .question => 2
    | .or => 3
    | .and => 4
    | .equal | .notEqual | .strictEqual | .strictNotEqual => 5
    | .less | .lessEqual | .greater | .greaterEqual => 6
    | .plus | .minus => 7
    | .star | .slash | .percent => 8
    | .increment | .decrement => 10
    | .leftParen | .leftBracket | .dot => 11
    | .arrow => 12
    | _ => 0
  | _ => 0

namespace Grammar

open Cursor

variable {c c' c₁ c₂ : Cursor} {k : TokenKind} {g g' : Goal} {y y' : Yield} {p a : Phrase}

lemma goesOn_of_kind (h : c.kind = k) : c.kind.goesOn = k.goesOn := congrArg _ h

lemma goesOn_of_infix? {op : Infix} (h : infix? k = some op) : k.goesOn = op.level + 2 := by
  unfold infix? at h
  split at h <;> cases h <;> rfl

lemma goesOn_of_assignOp? {op : AssignOp} (h : assignOp? k = some op) : k.goesOn = 1 := by
  unfold assignOp? at h
  split at h <;> cases h <;> rfl

lemma goesOn_of_updateOp? {op : UpdateOp} (h : updateOp? k = some op) : k.goesOn = 10 := by
  unfold updateOp? at h
  split at h <;> cases h <;> rfl

lemma not_at?_of_goesOn {p : Punct} (h : c.kind.goesOn < (TokenKind.punct p).goesOn) :
    c.at? p = false := by
  cases at? : c.at? p with
  | false => rfl
  | true =>
    rw [kind_of_at? at?] at h
    exact absurd h (Nat.lt_irrefl _)

lemma assignOp?_of_goesOn (h : k.goesOn = 0) : assignOp? k = none := by
  rw [Option.eq_none_iff_forall_ne_some]
  intro op hop
  have := goesOn_of_assignOp? hop
  omega

lemma updateOp?_of_goesOn (h : k.goesOn < 10) : updateOp? k = none := by
  rw [Option.eq_none_iff_forall_ne_some]
  intro op hop
  have := goesOn_of_updateOp? hop
  omega

/-- The goal is met within some depth. -/
def Finds (g : Goal) (c : Cursor) (y : Yield) (c' : Cursor) : Prop := ∃ d, Derives d g c y c'

lemma Finds.and {c₁' : Cursor} (h : Finds g c y c') (h' : Finds g' c₁ y' c₁') :
    ∃ d, Derives d g c y c' ∧ Derives d g' c₁ y' c₁' := by
  obtain ⟨d, h⟩ := h
  obtain ⟨d', h'⟩ := h'
  exact ⟨max d d', h.mono (le_max_left d d'), h'.mono (le_max_right d d')⟩

lemma operatorTail_ends {m : Nat} (ends : c.kind.goesOn < m + 2) :
    Finds (.operatorTail m p) c (.one p) c := by
  cases sign : infix? c.kind with
  | none => exact ⟨1, .operatorTail_none sign⟩
  | some op =>
    have := goesOn_of_infix? sign
    exact ⟨1, .operatorTail_weaker sign (by omega)⟩

lemma accesses_none (ends : c.kind.goesOn < 11) : Finds (.accesses true p) c (.one p) c := by
  have paren := not_at?_of_goesOn (p := .leftParen) ends
  have dot := not_at?_of_goesOn (p := .dot) ends
  have bracket := not_at?_of_goesOn (p := .leftBracket) ends
  exact ⟨1, .accesses_none (by simp [paren]) dot bracket⟩

lemma primary_start {d : Nat} (h : Derives d .primary c y c') :
    unaryOp? c.kind = none ∧ updateOp? c.kind = none ∧ c.atKeyword? .newWord = false := by
  cases h with
  | primary_literal token =>
    unfold literal? at token
    split at token <;> simp_all [unaryOp?, updateOp?, atKeyword?, TokenKind.isKeyword]
  | _ => simp_all [unaryOp?, updateOp?, atKeyword?, TokenKind.isKeyword]

/-- A primary expression with accesses behind it is no operator before an operand. -/
lemma unary_of_primary {f : Phrase} (head : Finds .primary c (.one f) c₁)
    (chain : Finds (.accesses true f) c₁ (.one a) c₂)
    (rest : ∀ d, Derives d .head c (.one f) c₁ → Derives d (.accesses true f) c₁ (.one a) c₂ →
      Derives (d + 1) .postfixed c (.one p) c') : Finds .unary c (.one p) c' := by
  obtain ⟨d, head, chain⟩ := head.and chain
  obtain ⟨notUnary, notUpdate, word⟩ := primary_start head
  exact ⟨d + 2, .unary_postfixed notUnary notUpdate (rest d (.head_primary word head) chain)⟩

/-- The search for an operand of level `n` reads the phrase `p` from `c` to `c'`, unless what
stands there goes on with it. Operators and accesses join to the left: the grammar functions have
read the operand before they come to them, so at these levels the row or the chain is found from
`c` on if it is found from `c'` on with the operand as its first part. -/
inductive Operand : Nat → Cursor → Phrase → Cursor → Prop
  | whole {n c p c'} (high : n ≤ 2)
      (found : c'.kind.goesOn = 0 → Finds .assignment c (.one p) c') : Operand n c p c'
  | joined {n c p c'} (low : 3 ≤ n) (high : n ≤ 8)
      (found : c'.kind.goesOn ≤ n → ∀ m y c'', m + 2 ≤ n →
        Finds (.operatorTail m p) c' y c'' → Finds (.operators m) c y c'') : Operand n c p c'
  | unary {n c p c'} (low : 9 ≤ n) (high : n ≤ 10)
      (found : c'.kind.goesOn ≤ 9 → Finds .unary c (.one p) c') : Operand n c p c'
  | chained {n c p c'} (low : 11 ≤ n)
      (found : c'.kind.goesOn ≤ 11 → ∀ a c'', Finds (.accesses true p) c' (.one a) c'' →
        ∃ f c₁, Finds .primary c (.one f) c₁ ∧ Finds (.accesses true f) c₁ (.one a) c'') :
      Operand n c p c'

namespace Operand

variable {n m : Nat}

lemma of_primary (hn : 11 ≤ n) (h : c'.kind.goesOn ≤ 11 → Finds .primary c (.one p) c') :
    Operand n c p c' := by
  apply chained hn
  intro ends a c'' chain
  exact ⟨p, c', h ends, chain⟩

lemma findsPrimary (h : Operand n c p c') (hn : 11 ≤ n) (ends : c'.kind.goesOn ≤ 11)
    (chain : Finds (.accesses true p) c' (.one a) c₂) :
    ∃ f c₁, Finds .primary c (.one f) c₁ ∧ Finds (.accesses true f) c₁ (.one a) c₂ := by
  cases h with
  | whole high => omega
  | joined _ high => omega
  | unary _ high => omega
  | chained _ found => exact found ends a c₂ chain

/-- An access behind an object: what the chain goes on with is read behind the object. -/
lemma access {object : Phrase} (h : Operand 11 c object c₁) (ends : c₁.kind.goesOn ≤ 11)
    (step : ∀ a c'', Finds (.accesses true p) c' (.one a) c'' →
      Finds (.accesses true object) c₁ (.one a) c'') : Operand 11 c p c' := by
  apply chained le_rfl
  intro _ a c'' chain
  exact h.findsPrimary le_rfl ends (step a c'' chain)

lemma findsUnary (h : Operand n c p c') (hn : 9 ≤ n) (ends : c'.kind.goesOn ≤ 9) :
    Finds .unary c (.one p) c' := by
  by_cases access : 11 ≤ n
  · obtain ⟨f, c₁, head, chain⟩ := h.findsPrimary access (by omega) (accesses_none (by omega))
    apply unary_of_primary head chain
    intro d head chain
    exact .postfixed_none head chain (.inr (updateOp?_of_goesOn (by omega)))
  · cases h with
    | whole high => omega
    | joined _ high => omega
    | unary _ _ found => exact found ends
    | chained low => omega

/-- Operators behind an operand are read with it as the first one. -/
lemma findsOperators (h : Operand n c p c') (hn : 3 ≤ n) (hm : m + 2 ≤ n)
    (ends : c'.kind.goesOn ≤ min n 9) (tail : Finds (.operatorTail m p) c' y c₂) :
    Finds (.operators m) c y c₂ := by
  by_cases tight : 9 ≤ n
  · obtain ⟨d, left, tail⟩ := (h.findsUnary tight (by omega)).and tail
    exact ⟨d + 1, .operators left tail⟩
  · cases h with
    | whole high => omega
    | joined _ _ found => exact found (by omega) m y c₂ hm tail
    | unary low => omega
    | chained low => omega

lemma findsConditional (h : Operand n c p c') (hn : 3 ≤ n) (ends : c'.kind.goesOn ≤ 1) :
    Finds .conditional c (.one p) c' := by
  have tail : Finds (.operatorTail 1 p) c' (.one p) c' := operatorTail_ends (by omega)
  obtain ⟨d, test⟩ := h.findsOperators hn (by omega) (by omega) tail
  exact ⟨d + 1, .conditional_none test (not_at?_of_goesOn (Nat.lt_of_le_of_lt ends (by decide)))⟩

lemma findsAssignment (h : Operand n c p c') (ends : c'.kind.goesOn = 0) :
    Finds .assignment c (.one p) c' := by
  by_cases operand : 3 ≤ n
  · obtain ⟨d, left⟩ := h.findsConditional operand (by omega)
    exact ⟨d + 1, .assignment_none left (assignOp?_of_goesOn ends)⟩
  · cases h with
    | whole _ found => exact found ends
    | joined low => omega
    | unary low => omega
    | chained low => omega

/-- What can stand in a place can stand where less is asked for. -/
lemma loosen (h : Operand n c p c') (le : m ≤ n) : Operand m c p c' := by
  rcases Nat.lt_or_ge m 3 with whole | operand
  · exact .whole (by omega) h.findsAssignment
  rcases Nat.lt_or_ge m 9 with joined | tight
  · apply Operand.joined operand (by omega)
    intro ends m' y c'' hm tail
    exact h.findsOperators (by omega) (by omega) (by omega) tail
  rcases Nat.lt_or_ge m 11 with unary | chained
  · exact .unary tight (by omega) (h.findsUnary (by omega))
  apply Operand.chained chained
  intro ends a c'' chain
  exact h.findsPrimary (by omega) ends chain

/-- Anything can stand in parentheses. -/
lemma paren (h : Operand n c.advance p c') (token : c.kind = .punct .leftParen)
    (close : c'.kind = .punct .rightParen) : Operand 12 c p c'.advance := by
  refine .of_primary (by omega) fun ends => ?_
  obtain ⟨d, inner⟩ := h.findsAssignment (goesOn_of_kind close)
  have noArrow : c'.advance.at? .arrow = false :=
    not_at?_of_goesOn (Nat.lt_of_le_of_lt ends (by decide))
  exact ⟨d + 1, .primary_paren token inner (at?_of_kind close) noArrow⟩

end Operand

section Closers

variable {closer : Punct} (closes : closer = .rightParen ∨ closer = .rightBracket)
include closes

/-- No operand begins with a closing bracket. -/
lemma Derives.not_at_closer {d : Nat} (h : Derives d g c y c') (hg : g.isOperand = true) :
    c.at? closer = false := by
  have begins := h.beginsOperand hg
  cases at? : c.at? closer with
  | false => rfl
  | true =>
    rw [kind_of_at? at?] at begins
    rcases closes with rfl | rfl <;> cases begins

lemma goesOn_of_closer (h : c.kind = .punct closer) : c.kind.goesOn = 0 := by
  rw [h]
  rcases closes with rfl | rfl <;> rfl

lemma not_at_comma_of_closer (h : c.kind = .punct closer) : c.at? .comma = false := by
  apply not_at?_of_kind h
  rcases closes with rfl | rfl <;> decide

end Closers

/-- An expression between the start and a semicolon is a whole program. -/
lemma program_of_assignment {size : Nat} {tokens : List Token} {p : Phrase} {c : Cursor}
    (found : Finds .assignment (.start tokens) (.one p) c)
    (begins : beginsExpression (Cursor.start tokens).kind = true)
    (semicolon : c.kind = .punct .semicolon) (ends : c.advance.atEnd = true) :
    program size tokens = .ok ⟨⟨0, size⟩, .program [⟨c.advance.spanFrom (Cursor.start tokens).span,
      .expressionStatement p⟩]⟩ := by
  obtain ⟨d, found⟩ := found
  have more : (Cursor.start tokens).atEnd = false := by
    have operand := found.beginsOperand rfl
    rw [Cursor.atEnd]
    cases hk : (Cursor.start tokens).kind with
    | endOfInput =>
      rw [hk] at operand
      cases operand
    | _ => rfl
  have stop : endStatement c = .ok c.advance := by
    rw [endStatement, if_pos (at?_of_kind semicolon)]
  have statement : Derives _ (.statement ⟨false, false⟩) (.start tokens) _ _ :=
    .statement_expression begins found stop
  have body := Derives.programBody_cons more statement (.programBody_nil ends)
  exact program_of_derives body

end Grammar

end ScriptDebugger
