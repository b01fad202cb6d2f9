import ScriptDebugger.Proofs.Syntax.Extent

/-!
# Extents of what the grammar reads

What each grammar function reads along the tokens of a text is spaced and lies
between the cursor before and the cursor after, and where it fails the error
marks a place in the text. This is proved for all functions together, by
induction on the depth.
-/

namespace ScriptDebugger.Grammar

open Cursor Phrase

variable {all : List Token} {α β : Type}

/-- What was read is as expected, or the error marks a place among the tokens. -/
def Meets (all : List Token) (post : α → Prop) : Result α → Prop
  | .ok a => post a
  | .error e => e.span.Marks all

lemma Meets.bind {post : α → Prop} {post' : β → Prop} {r : Result α} {f : α → Result β}
    (h : Meets all post r) (next : ∀ a, post a → Meets all post' (f a)) :
    Meets all post' (r >>= f) := by
  cases r with
  | error e => exact h
  | ok a => exact next a h

lemma Meets.mono {post post' : α → Prop} {r : Result α} (h : Meets all post r)
    (imp : ∀ a, post a → post' a) : Meets all post' r := by
  cases r with
  | error e => exact h
  | ok a => exact imp a h

/-- What comes after either of two parts. -/
lemma Meets.bind_ite {p : Prop} [Decidable p] {post : α → Prop} {post' : β → Prop}
    {r r' : Result α} {f : α → Result β} (h : Meets all post (if p then r else r'))
    (next : ∀ a, post a → Meets all post' (f a)) :
    Meets all post' (if p then r >>= f else r' >>= f) := by
  by_cases hp : p
  · rw [if_pos hp] at h ⊢
    exact h.bind next
  · rw [if_neg hp] at h ⊢
    exact h.bind next

/-- Phrases that begin at `lo` or later were read as far as a cursor. -/
structure Reads (all : List Token) (lo : Nat) (ps : List Phrase) (c' : Cursor) : Prop where
  along : c'.Along all
  row : Row all lo ps c'.lastStop

/-- Phrases were read with the token at `c` and perhaps more, as far as `c'`. -/
structure Takes (all : List Token) (c : Cursor) (ps : List Phrase) (c' : Cursor) : Prop extends
    Reads all c.span.start ps c' where
  more : c.atEnd = false
  past : c.span.stop ≤ c'.lastStop

/-- A phrase that begins where `left` does was read, with what follows at `c` as far as `c'`. -/
structure Joins (all : List Token) (left : Phrase) (c : Cursor) (p : Phrase) (c' : Cursor) : Prop
    extends Reads all left.span.start [p] c' where
  onward : c.lastStop ≤ c'.lastStop

section Reads

variable {c c' c₁ c₂ : Cursor} {lo : Nat} {l p r : Phrase} {ps qs : List Phrase}
  {kind : NodeKind Phrase}

namespace Reads

lemma nil (h : c'.Along all) (le : lo ≤ c'.lastStop) : Reads all lo [] c' := ⟨h, .nil le⟩

lemma spaced (h : Reads all lo [p] c') : p.Spaced all := (row_cons.mp h.row).2.1

lemma stop_le (h : Reads all lo [p] c') : p.span.stop ≤ c'.lastStop :=
  row_nil.mp (row_cons.mp h.row).2.2

lemma start_le (h : Reads all lo [p] c') : lo ≤ p.span.start := (row_cons.mp h.row).1

lemma low {lo' : Nat} (h : Reads all lo ps c') (le : lo' ≤ lo) : Reads all lo' ps c' :=
  ⟨h.along, h.row.mono le (Nat.le_refl _)⟩

lemma upto (h : Reads all lo ps c₁) (h' : c'.Along all) (le : c₁.lastStop ≤ c'.lastStop) :
    Reads all lo ps c' :=
  ⟨h', h.row.mono (Nat.le_refl _) le⟩

/-- A token that belongs to no phrase. -/
lemma close (h : Reads all lo ps c') : Reads all lo ps c'.advance :=
  h.upto h.along.advance h.along.lastStop_le_advance

lemma append (h : Reads all lo ps c₁) (h' : Reads all c₁.lastStop qs c₂) :
    Reads all lo (ps ++ qs) c₂ :=
  ⟨h'.along, h.row.append h'.row⟩

/-- A phrase from the first to the last of some phrases. -/
lemma merge (h : Reads all lo (l :: (ps ++ [r])) c') (children : kind.children = l :: (ps ++ [r])) :
    Reads all lo [⟨l.span.merge r.span, kind⟩] c' := by
  obtain ⟨after, hl, rest⟩ := row_cons.mp h.row
  obtain ⟨inner, hr, before⟩ := row_concat.mp rest
  have hlen := hl.covers.nonempty
  have hren := hr.covers.nonempty
  have := inner.le
  refine ⟨h.along, row_merge hl.covers hr.covers (by omega) (by omega) ?_ after before⟩
  rw [children]
  exact .cons (Nat.le_refl _) hl (row_concat.mpr ⟨inner, hr, Nat.le_refl _⟩)

lemma node (op : Infix) (h : Reads all lo [l, r] c') : Reads all lo [op.node l r] c' := by
  have both : Reads all lo (l :: ([] ++ [r])) c' := h
  cases op with
  | binary op => exact both.merge rfl
  | logical op => exact both.merge rfl

/-- A phrase from another one to the token at hand. -/
lemma mergeToken (h : Reads all lo [p] c') (more : c'.atEnd = false)
    (children : kind.children = [p]) :
    Reads all lo [⟨p.span.merge c'.span, kind⟩] c'.advance := by
  obtain ⟨after, hp, -⟩ := row_cons.mp h.row
  have inner := hp.covers.nonempty
  have token := (h.along.covers more).nonempty
  have before := h.stop_le
  have between := h.along.lastStop_le
  have stop := lastStop_advance more
  refine ⟨h.along.advance, row_merge hp.covers (h.along.covers more) (by omega) (by omega) ?_ after
    (Nat.le_of_eq stop.symm)⟩
  rw [children]
  exact .cons (Nat.le_refl _) hp (.nil (by omega))

/-- A phrase from the first of some phrases as far as the cursor. -/
lemma from_first (h : Reads all lo (l :: ps) c') (children : kind.children = l :: ps) :
    Reads all lo [⟨c'.spanFrom l.span, kind⟩] c' := by
  obtain ⟨after, hl, rest⟩ := row_cons.mp h.row
  refine ⟨h.along, row_from hl.covers h.along rest.le ?_ after⟩
  rw [children]
  exact .cons (Nat.le_refl _) hl rest

end Reads

namespace Joins

lemma self (hc : c.Along all) (hl : l.Spaced all) (before : l.span.stop ≤ c.lastStop) :
    Joins all l c l c :=
  ⟨⟨hc, .cons (Nat.le_refl _) hl (.nil before)⟩, Nat.le_refl _⟩

lemma trans (h : Reads all l.span.start [p] c₁) (onward : c.lastStop ≤ c₁.lastStop)
    (h' : Joins all p c₁ r c₂) : Joins all l c r c₂ :=
  ⟨h'.low h.start_le, Nat.le_trans onward h'.onward⟩

end Joins

namespace Takes

lemma afterStop (h : Takes all c ps c') (hc : c.Along all) : Reads all c.lastStop ps c' :=
  h.low hc.lastStop_le

lemma extend (h : Takes all c ps c₁) (h' : Reads all c.span.start qs c₂)
    (onward : c₁.lastStop ≤ c₂.lastStop) : Takes all c qs c₂ :=
  ⟨h', h.more, Nat.le_trans h.past onward⟩

end Takes

variable (hc : c.Along all)
include hc

/-- A phrase for the token at hand. -/
lemma takes_token (more : c.atEnd = false) (leaf : kind.children = []) :
    Takes all c [⟨c.span, kind⟩] c.advance := by
  have stop := lastStop_advance more
  have stops : c.span.stop ≤ c.advance.lastStop := Nat.le_of_eq stop.symm
  exact ⟨⟨hc.advance, row_leaf (hc.covers more) leaf (Nat.le_refl _) stops⟩, more, stops⟩

/-- A phrase from the token at hand as far as a cursor. -/
lemma takes_from (more : c.atEnd = false) (past : c.span.stop ≤ c'.lastStop)
    (h : Reads all c.span.start ps c') (children : kind.children = ps) :
    Takes all c [⟨c'.spanFrom c.span, kind⟩] c' := by
  refine ⟨⟨h.along, row_from (hc.covers more) h.along past ?_ (Nat.le_refl _)⟩, more, past⟩
  rw [children]
  exact h.row

/-- What comes after the token at hand. -/
lemma takes_inner (more : c.atEnd = false) (h : Reads all c.advance.lastStop ps c') :
    Takes all c ps c' := by
  have nonempty := (hc.covers more).nonempty
  have past := h.row.le
  rw [lastStop_advance more] at h past
  exact ⟨h.low (Nat.le_of_lt nonempty), more, past⟩

/-- A phrase from the token at hand, with sub-phrases after the token. -/
lemma takes_after (more : c.atEnd = false) (h : Reads all c.advance.lastStop ps c')
    (children : kind.children = ps) : Takes all c [⟨c'.spanFrom c.span, kind⟩] c' := by
  have inner := takes_inner hc more h
  exact takes_from hc more inner.past inner.toReads children

/-- A phrase from the token at hand to the end of its only sub-phrase. -/
lemma takes_merge (more : c.atEnd = false) (h : Reads all c.advance.lastStop [p] c')
    (children : kind.children = [p]) : Takes all c [⟨c.span.merge p.span, kind⟩] c' := by
  have nonempty := (hc.covers more).nonempty
  have start := h.start_le
  have stop := h.stop_le
  have inner := h.spaced.covers.nonempty
  rw [lastStop_advance more] at start
  refine ⟨⟨h.along, row_merge (hc.covers more) h.spaced.covers (by omega) (by omega) ?_
    (Nat.le_refl _) stop⟩, more, by omega⟩
  rw [children]
  exact .cons (by omega) h.spaced (.nil (Nat.le_refl _))

end Reads

section Tokens

variable {c : Cursor} (hc : c.Along all)

lemma checkTarget_meets {p : Phrase} (hp : p.Spaced all) :
    Meets all (fun _ => True) (checkTarget p) := by
  rw [checkTarget]
  split
  · trivial
  · trivial
  · exact .tokens hp.covers

include hc

lemma expect_meets (p : Punct) :
    Meets all (fun c' => c.atEnd = false ∧ c' = c.advance) (c.expect p) := by
  rw [Cursor.expect]
  split
  · rename_i at_p
    exact ⟨not_atEnd_of_at? at_p, rfl⟩
  · exact hc.marks

lemma bindingIdentifier_meets :
    Meets all (fun x => Takes all c [x.1] x.2) (bindingIdentifier c) := by
  rw [bindingIdentifier]
  split
  · rename_i name token
    exact takes_token hc (not_atEnd_of_kind_eq token rfl) rfl
  · exact hc.marks

lemma propertyName_meets : Meets all (fun x => Takes all c [x.1] x.2) (propertyName c) := by
  rw [propertyName]
  split
  · rename_i name token
    exact takes_token hc (not_atEnd_of_kind_eq token rfl) rfl
  · rename_i name token
    exact takes_token hc (not_atEnd_of_kind_eq token rfl) rfl
  · exact hc.marks

lemma propertyKey_meets :
    Meets all (fun x => c.atEnd = false ∧ x.2 = c.advance) (propertyKey c) := by
  rw [propertyKey]
  split
  case h_5 => exact hc.marks
  all_goals
    rename_i token
    exact ⟨not_atEnd_of_kind_eq token rfl, rfl⟩

lemma refuseArrow_meets : Meets all (fun _ => True) (refuseArrow c) := by
  rw [refuseArrow]
  split
  · exact hc.marks
  · trivial

lemma endStatement_meets :
    Meets all (fun c' => c'.Along all ∧ c.lastStop ≤ c'.lastStop) (endStatement c) := by
  rw [endStatement]
  split
  · exact ⟨hc.advance, hc.lastStop_le_advance⟩
  · split
    · exact ⟨hc, Nat.le_refl _⟩
    · exact (refuseArrow_meets hc).bind fun _ _ => hc.marks

lemma parameters_meets (d : Nat) :
    Meets all (fun x => Reads all c.lastStop x.1 x.2) (parameters d c) := by
  induction d generalizing c with
  | zero => exact hc.marks
  | succ d ih =>
    rw [parameters]
    split
    · exact .nil hc (Nat.le_refl _)
    · refine (bindingIdentifier_meets hc).bind ?_
      rintro ⟨name, c₁⟩ h₁
      dsimp only
      split
      · refine (ih h₁.along.advance).bind ?_
        rintro ⟨names, c₂⟩ h₂
        exact (h₁.afterStop hc).close.append h₂
      · exact h₁.afterStop hc

end Tokens

/-- What the grammar functions give within a depth. Those that begin with a word are called where
the word stands. -/
structure Specs (all : List Token) (d : Nat) : Prop where
  assignment : ∀ {c : Cursor}, c.Along all →
    Meets all (fun x => Takes all c [x.1] x.2) (Grammar.assignment d c)
  conditional : ∀ {c : Cursor}, c.Along all →
    Meets all (fun x => Takes all c [x.1] x.2) (Grammar.conditional d c)
  operators : ∀ {c : Cursor} (n : Nat), c.Along all →
    Meets all (fun x => Takes all c [x.1] x.2) (Grammar.operators d n c)
  operatorTail : ∀ {c : Cursor} {left : Phrase} (n : Nat), c.Along all → left.Spaced all →
    left.span.stop ≤ c.lastStop →
    Meets all (fun x => Joins all left c x.1 x.2) (Grammar.operatorTail d n left c)
  unary : ∀ {c : Cursor}, c.Along all →
    Meets all (fun x => Takes all c [x.1] x.2) (Grammar.unary d c)
  postfixed : ∀ {c : Cursor}, c.Along all →
    Meets all (fun x => Takes all c [x.1] x.2) (Grammar.postfixed d c)
  accesses : ∀ {c : Cursor} {callee : Phrase} (calls : Bool), c.Along all → callee.Spaced all →
    callee.span.stop ≤ c.lastStop →
    Meets all (fun x => Joins all callee c x.1 x.2) (Grammar.accesses d calls callee c)
  construction : ∀ {c : Cursor}, c.Along all → c.atEnd = false →
    Meets all (fun x => Takes all c [x.1] x.2) (Grammar.construction d c)
  elements : ∀ {c : Cursor} (closer : Punct), c.Along all →
    Meets all (fun x => Reads all c.lastStop x.1 x.2) (Grammar.elements d closer c)
  properties : ∀ {c : Cursor}, c.Along all →
    Meets all (fun x => Reads all c.lastStop x.1 x.2) (Grammar.properties d c)
  primary : ∀ {c : Cursor}, c.Along all →
    Meets all (fun x => Takes all c [x.1] x.2) (Grammar.primary d c)
  functionRest : ∀ {c : Cursor}, c.Along all →
    Meets all (fun x => Reads all c.lastStop (x.1.1 ++ [x.1.2]) x.2) (Grammar.functionRest d c)
  block : ∀ {c : Cursor} (ctx : Context), c.Along all →
    Meets all (fun x => Takes all c [x.1] x.2) (Grammar.block d ctx c)
  blockBody : ∀ {c : Cursor} (ctx : Context), c.Along all →
    Meets all (fun x => Reads all c.lastStop x.1 x.2) (Grammar.blockBody d ctx c)
  declarators : ∀ {c : Cursor}, c.Along all →
    Meets all (fun x => Reads all c.lastStop x.1 x.2) (Grammar.declarators d c)
  declaration : ∀ {c : Cursor} (kind : VarKind) (terminated : Bool), c.Along all →
    c.atEnd = false →
    Meets all (fun x => Takes all c [x.1] x.2) (Grammar.declaration d kind terminated c)
  parenthesized : ∀ {c : Cursor}, c.Along all →
    Meets all (fun x => Reads all c.lastStop [x.1] x.2) (Grammar.parenthesized d c)
  optional : ∀ {c : Cursor} (closer : Punct), c.Along all →
    Meets all (fun x => Reads all c.lastStop x.1.toList x.2) (Grammar.optional d closer c)
  forInit : ∀ {c : Cursor}, c.Along all →
    Meets all (fun x => Reads all c.lastStop x.1.toList x.2) (Grammar.forInit d c)
  forStatement : ∀ {c : Cursor} (ctx : Context), c.Along all → c.atEnd = false →
    Meets all (fun x => Takes all c [x.1] x.2) (Grammar.forStatement d ctx c)
  statement : ∀ {c : Cursor} (ctx : Context), c.Along all →
    Meets all (fun x => Takes all c [x.1] x.2) (Grammar.statement d ctx c)

section Succ

variable {d : Nat} {c : Cursor} (ih : Specs all d) (hc : c.Along all)
include ih hc

lemma assignment_meets :
    Meets all (fun x => Takes all c [x.1] x.2) (Grammar.assignment (d + 1) c) := by
  rw [Grammar.assignment]
  refine (ih.conditional hc).bind ?_
  rintro ⟨left, c₁⟩ h₁
  dsimp only
  split
  · exact h₁
  · refine (checkTarget_meets h₁.spaced).bind fun _ _ => ?_
    refine (ih.assignment h₁.along.advance).bind ?_
    rintro ⟨right, c₂⟩ h₂
    have later := h₂.afterStop h₁.along.advance
    have both := h₁.toReads.close.append later
    exact h₁.extend (both.merge rfl) (Nat.le_trans h₁.along.lastStop_le_advance later.row.le)

lemma conditional_meets :
    Meets all (fun x => Takes all c [x.1] x.2) (Grammar.conditional (d + 1) c) := by
  rw [Grammar.conditional]
  refine (ih.operators 1 hc).bind ?_
  rintro ⟨test, c₁⟩ h₁
  dsimp only
  split
  · refine (ih.assignment h₁.along.advance).bind ?_
    rintro ⟨consequent, c₂⟩ h₂
    refine (expect_meets h₂.along .colon).bind ?_
    rintro _ ⟨-, rfl⟩
    refine (ih.assignment h₂.along.advance).bind ?_
    rintro ⟨alternate, c₃⟩ h₃
    have second := (h₂.afterStop h₁.along.advance).close
    have third := h₃.afterStop h₂.along.advance
    have later := second.append third
    have three := h₁.toReads.close.append later
    exact h₁.extend (three.merge rfl) (Nat.le_trans h₁.along.lastStop_le_advance later.row.le)
  · exact h₁

lemma operators_meets (n : Nat) :
    Meets all (fun x => Takes all c [x.1] x.2) (Grammar.operators (d + 1) n c) := by
  rw [Grammar.operators]
  refine (ih.unary hc).bind ?_
  rintro ⟨left, c₁⟩ h₁
  refine (ih.operatorTail n h₁.along h₁.spaced h₁.stop_le).mono ?_
  rintro ⟨p, c₂⟩ h₂
  exact h₁.extend (h₂.low h₁.start_le) h₂.onward

lemma operatorTail_meets {left : Phrase} (n : Nat) (hl : left.Spaced all)
    (before : left.span.stop ≤ c.lastStop) :
    Meets all (fun x => Joins all left c x.1 x.2) (Grammar.operatorTail (d + 1) n left c) := by
  have self := Joins.self hc hl before
  rw [Grammar.operatorTail]
  split
  · exact self
  · rename_i op _
    split
    · exact self
    · refine (ih.operators (op.level + 1) hc.advance).bind ?_
      rintro ⟨right, c₁⟩ h₁
      have later := h₁.afterStop hc.advance
      have both := (self.close.append later).node op
      refine (ih.operatorTail n h₁.along both.spaced both.stop_le).mono ?_
      rintro ⟨p, c₂⟩ h₂
      exact .trans both (Nat.le_trans hc.lastStop_le_advance later.row.le) h₂

lemma unary_meets : Meets all (fun x => Takes all c [x.1] x.2) (Grammar.unary (d + 1) c) := by
  rw [Grammar.unary]
  split
  · rename_i op token
    have more := not_atEnd_of_some rfl token
    refine (ih.unary hc.advance).bind ?_
    rintro ⟨argument, c₁⟩ h₁
    exact takes_merge hc more (h₁.afterStop hc.advance) rfl
  · split
    · rename_i op token
      have more := not_atEnd_of_some rfl token
      refine (ih.unary hc.advance).bind ?_
      rintro ⟨argument, c₁⟩ h₁
      refine (checkTarget_meets h₁.spaced).bind fun _ _ => ?_
      exact takes_merge hc more (h₁.afterStop hc.advance) rfl
    · exact ih.postfixed hc

omit hc in
/-- What a chain of accesses begins with. -/
lemma head_meets {c : Cursor} (hc : c.Along all) :
    Meets all (fun x => Takes all c [x.1] x.2)
      (if c.atKeyword? .newWord then Grammar.construction d c else Grammar.primary d c) := by
  split
  · rename_i word
    exact ih.construction hc (not_atEnd_of_kind (TokenKind.isKeyword .newWord) rfl word)
  · exact ih.primary hc

lemma postfixed_meets :
    Meets all (fun x => Takes all c [x.1] x.2) (Grammar.postfixed (d + 1) c) := by
  rw [Grammar.postfixed]
  refine (head_meets ih hc).bind_ite ?_
  rintro ⟨callee, c₁⟩ h₁
  refine (ih.accesses true h₁.along h₁.spaced h₁.stop_le).bind ?_
  rintro ⟨argument, c₂⟩ h₂
  have operand := h₁.extend (h₂.low h₁.start_le) h₂.onward
  dsimp only
  split
  · exact operand
  · split
    · exact operand
    · rename_i op token
      have more := not_atEnd_of_some rfl token
      refine (checkTarget_meets h₂.spaced).bind fun _ _ => ?_
      exact operand.extend (operand.mergeToken more rfl) operand.along.lastStop_le_advance

lemma accesses_meets {callee : Phrase} (calls : Bool) (hf : callee.Spaced all)
    (before : callee.span.stop ≤ c.lastStop) :
    Meets all (fun x => Joins all callee c x.1 x.2)
      (Grammar.accesses (d + 1) calls callee c) := by
  have self := Joins.self hc hf before
  -- each access makes a longer callee, which the rest of the chain joins
  have chain {kind : NodeKind Phrase} {ps : List Phrase} {c₁ : Cursor}
      (children : kind.children = callee :: ps) (h : Reads all c.advance.lastStop ps c₁) :
      Meets all (fun x => Joins all callee c x.1 x.2)
        (Grammar.accesses d calls ⟨c₁.spanFrom callee.span, kind⟩ c₁) := by
    have longer := (self.close.append h).from_first children
    refine (ih.accesses calls h.along longer.spaced longer.stop_le).mono ?_
    rintro ⟨p, c₂⟩ h₂
    exact .trans longer (Nat.le_trans hc.lastStop_le_advance h.row.le) h₂
  rw [Grammar.accesses]
  split
  · refine (ih.elements .rightParen hc.advance).bind ?_
    rintro ⟨arguments, c₁⟩ h₁
    refine (expect_meets h₁.along .rightParen).bind ?_
    rintro _ ⟨-, rfl⟩
    exact chain rfl h₁.close
  split
  · refine (propertyName_meets hc.advance).bind ?_
    rintro ⟨name, c₁⟩ h₁
    exact chain rfl (h₁.afterStop hc.advance)
  split
  · refine (ih.assignment hc.advance).bind ?_
    rintro ⟨key, c₁⟩ h₁
    refine (expect_meets h₁.along .rightBracket).bind ?_
    rintro _ ⟨-, rfl⟩
    exact chain rfl (h₁.afterStop hc.advance).close
  · exact self

lemma construction_meets (more : c.atEnd = false) :
    Meets all (fun x => Takes all c [x.1] x.2) (Grammar.construction (d + 1) c) := by
  rw [Grammar.construction]
  refine (head_meets ih hc.advance).bind_ite ?_
  rintro ⟨callee, c₁⟩ h₁
  refine (ih.accesses false h₁.along h₁.spaced h₁.stop_le).bind ?_
  rintro ⟨callee, c₂⟩ h₂
  have operand := (h₁.extend (h₂.low h₁.start_le) h₂.onward).afterStop hc.advance
  dsimp only
  split
  · refine (ih.elements .rightParen h₂.along.advance).bind ?_
    rintro ⟨arguments, c₃⟩ h₃
    refine (expect_meets h₃.along .rightParen).bind ?_
    rintro _ ⟨-, rfl⟩
    exact takes_after hc more (operand.close.append h₃.close) rfl
  · exact takes_after hc more operand rfl

lemma elements_meets (closer : Punct) :
    Meets all (fun x => Reads all c.lastStop x.1 x.2) (Grammar.elements (d + 1) closer c) := by
  rw [Grammar.elements]
  split
  · exact .nil hc (Nat.le_refl _)
  · refine (ih.assignment hc).bind ?_
    rintro ⟨element, c₁⟩ h₁
    dsimp only
    split
    · refine (ih.elements closer h₁.along.advance).bind ?_
      rintro ⟨rest, c₂⟩ h₂
      exact (h₁.afterStop hc).close.append h₂
    · exact h₁.afterStop hc

lemma properties_meets :
    Meets all (fun x => Reads all c.lastStop x.1 x.2) (Grammar.properties (d + 1) c) := by
  rw [Grammar.properties]
  split
  · exact .nil hc (Nat.le_refl _)
  · refine (propertyKey_meets hc).bind ?_
    rintro ⟨key, _⟩ ⟨more, rfl⟩
    refine (expect_meets hc.advance .colon).bind ?_
    rintro _ ⟨-, rfl⟩
    refine (ih.assignment hc.advance.advance).bind ?_
    rintro ⟨value, c₁⟩ h₁
    have inner := (h₁.afterStop hc.advance.advance).low hc.advance.lastStop_le_advance
    have property : Takes all c [⟨c.span.merge value.span, .property key value⟩] c₁ :=
      takes_merge hc more inner rfl
    have property := property.afterStop hc
    dsimp only
    split
    · refine (ih.properties h₁.along.advance).bind ?_
      rintro ⟨rest, c₂⟩ h₂
      exact property.close.append h₂
    · exact property

lemma primary_meets :
    Meets all (fun x => Takes all c [x.1] x.2) (Grammar.primary (d + 1) c) := by
  have token {k : TokenKind} (h : c.kind = k) (hk : k.isEndOfInput = false) : c.atEnd = false :=
    not_atEnd_of_kind_eq h hk
  rw [Grammar.primary]
  split
  case h_1 x hk => exact takes_token hc (token hk rfl) rfl
  case h_2 x hk => exact takes_token hc (token hk rfl) rfl
  case h_3 hk => exact takes_token hc (token hk rfl) rfl
  case h_4 hk => exact takes_token hc (token hk rfl) rfl
  case h_5 hk => exact takes_token hc (token hk rfl) rfl
  case h_6 name hk =>
    refine (refuseArrow_meets hc.advance).bind fun _ _ => ?_
    exact takes_token hc (token hk rfl) rfl
  case h_7 hk =>
    refine (ih.assignment hc.advance).bind ?_
    rintro ⟨inner, c₁⟩ h₁
    refine (expect_meets h₁.along .rightParen).bind ?_
    rintro _ ⟨-, rfl⟩
    refine (refuseArrow_meets h₁.along.advance).bind fun _ _ => ?_
    exact takes_inner hc (token hk rfl) (h₁.afterStop hc.advance).close
  case h_8 hk =>
    refine (ih.elements .rightBracket hc.advance).bind ?_
    rintro ⟨items, c₁⟩ h₁
    refine (expect_meets h₁.along .rightBracket).bind ?_
    rintro _ ⟨-, rfl⟩
    exact takes_after hc (token hk rfl) h₁.close rfl
  case h_9 hk =>
    refine (ih.properties hc.advance).bind ?_
    rintro ⟨items, c₁⟩ h₁
    refine (expect_meets h₁.along .rightBrace).bind ?_
    rintro _ ⟨-, rfl⟩
    exact takes_after hc (token hk rfl) h₁.close rfl
  case h_10 hk =>
    dsimp only
    split
    · rename_i name hname
      have binder : Takes all c.advance [⟨c.advance.span, .identifier name⟩] c.advance.advance :=
        takes_token hc.advance (not_atEnd_of_kind_eq hname rfl) rfl
      refine (ih.functionRest hc.advance.advance).bind ?_
      rintro ⟨⟨params, body⟩, c₁⟩ h₁
      exact takes_after hc (token hk rfl) ((binder.afterStop hc.advance).append h₁) rfl
    · refine (ih.functionRest hc.advance).bind ?_
      rintro ⟨⟨params, body⟩, c₁⟩ h₁
      exact takes_after hc (token hk rfl) h₁ rfl
  case h_11 => exact hc.marks
  case h_12 => exact hc.marks

lemma functionRest_meets :
    Meets all (fun x => Reads all c.lastStop (x.1.1 ++ [x.1.2]) x.2)
      (Grammar.functionRest (d + 1) c) := by
  rw [Grammar.functionRest]
  refine (expect_meets hc .leftParen).bind ?_
  rintro _ ⟨-, rfl⟩
  refine (parameters_meets hc.advance d).bind ?_
  rintro ⟨params, c₁⟩ h₁
  refine (expect_meets h₁.along .rightParen).bind ?_
  rintro _ ⟨-, rfl⟩
  refine (ih.block _ h₁.along.advance).bind ?_
  rintro ⟨body, c₂⟩ h₂
  exact (h₁.close.append (h₂.afterStop h₁.along.advance)).low hc.lastStop_le_advance

lemma block_meets (ctx : Context) :
    Meets all (fun x => Takes all c [x.1] x.2) (Grammar.block (d + 1) ctx c) := by
  rw [Grammar.block]
  refine (expect_meets hc .leftBrace).bind ?_
  rintro _ ⟨more, rfl⟩
  refine (ih.blockBody ctx hc.advance).bind ?_
  rintro ⟨body, c₁⟩ h₁
  exact takes_after hc more h₁.close rfl

lemma blockBody_meets (ctx : Context) :
    Meets all (fun x => Reads all c.lastStop x.1 x.2) (Grammar.blockBody (d + 1) ctx c) := by
  rw [Grammar.blockBody]
  split
  · exact .nil hc (Nat.le_refl _)
  split
  · exact hc.marks
  · refine (ih.statement ctx hc).bind ?_
    rintro ⟨first, c₁⟩ h₁
    refine (ih.blockBody ctx h₁.along).bind ?_
    rintro ⟨rest, c₂⟩ h₂
    exact (h₁.afterStop hc).append h₂

lemma declaration_meets (kind : VarKind) (terminated : Bool) (more : c.atEnd = false) :
    Meets all (fun x => Takes all c [x.1] x.2)
      (Grammar.declaration (d + 1) kind terminated c) := by
  rw [Grammar.declaration]
  refine (ih.declarators hc.advance).bind ?_
  rintro ⟨names, c₁⟩ h₁
  have stop : Meets all (fun c' => c'.Along all ∧ c₁.lastStop ≤ c'.lastStop)
      (if terminated then endStatement c₁ else .ok c₁) := by
    split
    · exact endStatement_meets h₁.along
    · exact ⟨h₁.along, Nat.le_refl _⟩
  refine stop.bind_ite ?_
  rintro c₂ ⟨h₂, onward⟩
  exact takes_after hc more (h₁.upto h₂ onward) rfl

lemma parenthesized_meets :
    Meets all (fun x => Reads all c.lastStop [x.1] x.2) (Grammar.parenthesized (d + 1) c) := by
  rw [Grammar.parenthesized]
  refine (expect_meets hc .leftParen).bind ?_
  rintro _ ⟨-, rfl⟩
  refine (ih.assignment hc.advance).bind ?_
  rintro ⟨inner, c₁⟩ h₁
  refine (expect_meets h₁.along .rightParen).bind ?_
  rintro _ ⟨-, rfl⟩
  exact ((h₁.afterStop hc.advance).low hc.lastStop_le_advance).close

lemma optional_meets (closer : Punct) :
    Meets all (fun x => Reads all c.lastStop x.1.toList x.2)
      (Grammar.optional (d + 1) closer c) := by
  rw [Grammar.optional]
  split
  · exact .nil hc (Nat.le_refl _)
  · refine (ih.assignment hc).bind ?_
    rintro ⟨inner, c₁⟩ h₁
    exact h₁.afterStop hc

lemma declarators_meets :
    Meets all (fun x => Reads all c.lastStop x.1 x.2) (Grammar.declarators (d + 1) c) := by
  rw [Grammar.declarators]
  refine (bindingIdentifier_meets hc).bind ?_
  rintro ⟨name, c₁⟩ h₁
  have rest {init : Option Phrase} {c₂ : Cursor} (h₂ : Reads all c₁.lastStop init.toList c₂) :
      Meets all (fun x => Reads all c.lastStop x.1 x.2)
        (if c₂.at? .comma then
          Grammar.declarators d c₂.advance >>= fun x =>
            .ok (⟨c₂.spanFrom name.span, .variableDeclarator name init⟩ :: x.1, x.2)
        else .ok ([⟨c₂.spanFrom name.span, .variableDeclarator name init⟩], c₂)) := by
    have declarator : Reads all c.lastStop
        [⟨c₂.spanFrom name.span, .variableDeclarator name init⟩] c₂ :=
      ((h₁.afterStop hc).append h₂).from_first rfl
    split
    · refine (ih.declarators h₂.along.advance).bind ?_
      rintro ⟨names, c₃⟩ h₃
      exact declarator.close.append h₃
    · exact declarator
  dsimp only
  split
  · refine (ih.assignment h₁.along.advance).bind ?_
    rintro ⟨value, c₂⟩ h₂
    exact rest ((h₂.afterStop h₁.along.advance).low h₁.along.lastStop_le_advance)
  · exact rest (.nil h₁.along (Nat.le_refl _))

lemma forInit_meets :
    Meets all (fun x => Reads all c.lastStop x.1.toList x.2) (Grammar.forInit (d + 1) c) := by
  rw [Grammar.forInit]
  split
  case h_4 => exact ih.optional .semicolon hc
  all_goals
    rename_i token
    refine (ih.declaration _ false hc (not_atEnd_of_kind_eq token rfl)).bind ?_
    rintro ⟨init, c₁⟩ h₁
    exact h₁.afterStop hc

lemma forStatement_meets (ctx : Context) (more : c.atEnd = false) :
    Meets all (fun x => Takes all c [x.1] x.2) (Grammar.forStatement (d + 1) ctx c) := by
  rw [Grammar.forStatement]
  refine (expect_meets hc.advance .leftParen).bind ?_
  rintro _ ⟨-, rfl⟩
  refine (ih.forInit hc.advance.advance).bind ?_
  rintro ⟨init, c₁⟩ h₁
  dsimp only
  split
  · exact h₁.along.marks
  · refine (expect_meets h₁.along .semicolon).bind ?_
    rintro _ ⟨-, rfl⟩
    refine (ih.optional .semicolon h₁.along.advance).bind ?_
    rintro ⟨test, c₂⟩ h₂
    refine (expect_meets h₂.along .semicolon).bind ?_
    rintro _ ⟨-, rfl⟩
    refine (ih.optional .rightParen h₂.along.advance).bind ?_
    rintro ⟨update, c₃⟩ h₃
    refine (expect_meets h₃.along .rightParen).bind ?_
    rintro _ ⟨-, rfl⟩
    refine (ih.statement _ h₃.along.advance).bind ?_
    rintro ⟨body, c₄⟩ h₄
    have head := (h₁.close.append h₂.close).append h₃.close
    have whole := head.append (h₄.afterStop h₃.along.advance)
    exact takes_after hc more (whole.low hc.advance.lastStop_le_advance) rfl

lemma statement_meets (ctx : Context) :
    Meets all (fun x => Takes all c [x.1] x.2) (Grammar.statement (d + 1) ctx c) := by
  have token {k : TokenKind} (h : c.kind = k) (hk : k.isEndOfInput = false) : c.atEnd = false :=
    not_atEnd_of_kind_eq h hk
  -- a word that makes a statement alone
  have word {kind : NodeKind Phrase} (more : c.atEnd = false) (leaf : kind.children = []) :
      Meets all (fun x => Takes all c [x.1] x.2) (do
        let c' ← endStatement c.advance
        .ok (⟨c'.spanFrom c.span, kind⟩, c')) := by
    refine (endStatement_meets hc.advance).bind ?_
    rintro c₁ ⟨h₁, onward⟩
    exact takes_after hc more (.nil h₁ onward) leaf
  rw [Grammar.statement]
  split
  case h_1 hk => exact ih.block ctx hc
  case h_2 hk => exact ih.declaration _ true hc (token hk rfl)
  case h_3 hk => exact ih.declaration _ true hc (token hk rfl)
  case h_4 hk => exact ih.declaration _ true hc (token hk rfl)
  case h_5 hk =>
    refine (bindingIdentifier_meets hc.advance).bind ?_
    rintro ⟨name, c₁⟩ h₁
    refine (ih.functionRest h₁.along).bind ?_
    rintro ⟨⟨params, body⟩, c₂⟩ h₂
    exact takes_after hc (token hk rfl) ((h₁.afterStop hc.advance).append h₂) rfl
  case h_6 hk =>
    refine (ih.parenthesized hc.advance).bind ?_
    rintro ⟨test, c₁⟩ h₁
    refine (ih.statement ctx h₁.along).bind ?_
    rintro ⟨consequent, c₂⟩ h₂
    have branches := h₁.append (h₂.afterStop h₁.along)
    dsimp only
    split
    · refine (ih.statement ctx h₂.along.advance).bind ?_
      rintro ⟨alternate, c₃⟩ h₃
      have all := branches.close.append (h₃.afterStop h₂.along.advance)
      exact takes_after hc (token hk rfl) all rfl
    · exact takes_after hc (token hk rfl) branches rfl
  case h_7 hk => exact ih.forStatement ctx hc (token hk rfl)
  case h_8 hk =>
    refine (ih.parenthesized hc.advance).bind ?_
    rintro ⟨test, c₁⟩ h₁
    refine (ih.statement _ h₁.along).bind ?_
    rintro ⟨body, c₂⟩ h₂
    exact takes_after hc (token hk rfl) (h₁.append (h₂.afterStop h₁.along)) rfl
  case h_9 hk =>
    split
    · exact hc.marks
    · have result : Meets all (fun x => Reads all c.advance.lastStop x.1.toList x.2)
          (if mayEnd c.advance then .ok (none, c.advance)
          else Grammar.optional d .semicolon c.advance) := by
        split
        · exact .nil hc.advance (Nat.le_refl _)
        · exact ih.optional .semicolon hc.advance
      refine result.bind_ite ?_
      rintro ⟨argument, c₁⟩ h₁
      refine (endStatement_meets h₁.along).bind ?_
      rintro c₂ ⟨h₂, onward⟩
      exact takes_after hc (token hk rfl) (h₁.upto h₂ onward) rfl
  case h_10 hk =>
    dsimp only
    split
    · exact hc.advance.marks
    · refine (ih.assignment hc.advance).bind ?_
      rintro ⟨argument, c₁⟩ h₁
      refine (endStatement_meets h₁.along).bind ?_
      rintro c₂ ⟨h₂, onward⟩
      exact takes_after hc (token hk rfl) ((h₁.afterStop hc.advance).upto h₂ onward) rfl
  case h_11 hk =>
    split
    · exact hc.marks
    · exact word (token hk rfl) rfl
  case h_12 hk =>
    split
    · exact hc.marks
    · exact word (token hk rfl) rfl
  case h_13 hk => exact word (token hk rfl) rfl
  case h_14 hk => exact takes_token hc (token hk rfl) rfl
  case h_15 => exact hc.marks
  case h_16 =>
    refine (ih.assignment hc).bind ?_
    rintro ⟨expression, c₁⟩ h₁
    refine (endStatement_meets h₁.along).bind ?_
    rintro c₂ ⟨h₂, onward⟩
    exact takes_from hc h₁.more (Nat.le_trans h₁.past onward) (h₁.upto h₂ onward) rfl

end Succ

theorem specs (d : Nat) : Specs all d := by
  induction d with
  | zero =>
    constructor <;> intros <;> exact Along.marks ‹_›
  | succ d ih =>
    exact {
      assignment := assignment_meets ih
      conditional := conditional_meets ih
      operators := fun n hc => operators_meets ih hc n
      operatorTail := fun n hc => operatorTail_meets ih hc n
      unary := unary_meets ih
      postfixed := postfixed_meets ih
      accesses := fun calls hc => accesses_meets ih hc calls
      construction := construction_meets ih
      elements := fun closer hc => elements_meets ih hc closer
      properties := properties_meets ih
      primary := primary_meets ih
      functionRest := functionRest_meets ih
      block := fun ctx hc => block_meets ih hc ctx
      blockBody := fun ctx hc => blockBody_meets ih hc ctx
      declarators := declarators_meets ih
      declaration := fun kind terminated hc => declaration_meets ih hc kind terminated
      parenthesized := parenthesized_meets ih
      optional := fun closer hc => optional_meets ih hc closer
      forInit := forInit_meets ih
      forStatement := fun ctx hc => forStatement_meets ih hc ctx
      statement := fun ctx hc => statement_meets ih hc ctx }

/-- What a program is made of follows one another. -/
theorem programBody_meets (d : Nat) {c : Cursor} (hc : c.Along all) :
    Meets all (fun x => Reads all c.lastStop x.1 x.2) (programBody d c) := by
  induction d generalizing c with
  | zero => exact hc.marks
  | succ d ih =>
    rw [programBody]
    split
    · exact .nil hc (Nat.le_refl _)
    · refine ((specs d).statement _ hc).bind ?_
      rintro ⟨first, c₁⟩ h₁
      refine (ih h₁.along).bind ?_
      rintro ⟨rest, c₂⟩ h₂
      exact (h₁.afterStop hc).append h₂

end ScriptDebugger.Grammar
