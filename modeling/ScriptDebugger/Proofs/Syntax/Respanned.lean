import Mathlib.Data.List.Forall2
import ScriptDebugger.Proofs.Syntax.MovedDerivation
import ScriptDebugger.Proofs.Syntax.MovedNumbering
import ScriptDebugger.Proofs.Syntax.Recognition

/-!
# Tokens in other places

Two lists of tokens that differ in nothing but their spans are read alike: the phrases
differ in their spans only, and where one list is refused the other one is refused for
the same reason. Here are the relation between two cursors and what holds of the
functions that read a token at most.
-/

namespace ScriptDebugger

/-- Where the offsets of a text go. Starts and ends of spans may go different ways, but the order
among each of them is kept. -/
structure Displacement where
  start : Nat → Nat
  stop : Nat → Nat
  start_mono : Monotone start
  stop_mono : Monotone stop

namespace Displacement

variable (m : Displacement)

def span (s : Span) : Span := ⟨m.start s.start, m.stop s.stop⟩

lemma span_merge (a b : Span) : m.span (a.merge b) = (m.span a).merge (m.span b) := by
  simp only [Span.merge, span, m.start_mono.map_min, m.stop_mono.map_max]

/-- The phrase with all spans displaced. -/
def phrase : Phrase → Phrase := Phrase.mapSpans m.span

lemma phrase_mk (span : Span) (kind : NodeKind Phrase) :
    m.phrase ⟨span, kind⟩ = ⟨m.span span, kind.map m.phrase⟩ :=
  Phrase.mapSpans_mk m.span span kind

lemma span_phrase (p : Phrase) : (m.phrase p).span = m.span p.span := p.span_mapSpans

lemma kind_phrase (p : Phrase) : (m.phrase p).kind = p.kind.map m.phrase := p.kind_mapSpans

lemma merge_phrase (l r : Phrase) :
    (m.phrase l).span.merge (m.phrase r).span = m.span (l.span.merge r.span) := by
  rw [span_phrase, span_phrase, span_merge]

lemma phrase_node (op : Grammar.Infix) (l r : Phrase) :
    op.node (m.phrase l) (m.phrase r) = m.phrase (op.node l r) := by
  cases op <;> rw [Grammar.Infix.node, Grammar.Infix.node, phrase_mk, merge_phrase] <;> rfl

end Displacement

/-- The same token in another place; where the end of input is does not matter. -/
structure Token.Twin (m : Displacement) (t t' : Token) : Prop where
  kind : t'.kind = t.kind
  newline : t'.newlineBefore = t.newlineBefore
  span : t.kind.isEndOfInput = false → t'.span = m.span t.span

/-- The same place among tokens in other places. -/
structure Cursor.Paired (m : Displacement) (c c' : Cursor) : Prop where
  tokens : List.Forall₂ (Token.Twin m) c.tokens c'.tokens
  lastStop : c'.lastStop = m.stop c.lastStop

namespace Cursor.Paired

variable {m : Displacement} {c c' : Cursor}

lemma kind_eq (h : Paired m c c') : c'.kind = c.kind := by
  obtain ⟨ts, l⟩ := c
  obtain ⟨ts', l'⟩ := c'
  cases h.tokens with
  | nil => rfl
  | cons twin => exact twin.kind

lemma newline_eq (h : Paired m c c') : c'.newlineBefore = c.newlineBefore := by
  obtain ⟨ts, l⟩ := c
  obtain ⟨ts', l'⟩ := c'
  cases h.tokens with
  | nil => rfl
  | cons twin => exact twin.newline

lemma span_eq (h : Paired m c c') (more : c.atEnd = false) : c'.span = m.span c.span := by
  obtain ⟨ts, l⟩ := c
  obtain ⟨ts', l'⟩ := c'
  cases h.tokens with
  | nil => cases more
  | cons twin => exact twin.span more

lemma at?_eq (h : Paired m c c') (p : Punct) : c'.at? p = c.at? p := by
  simp only [Cursor.at?, h.kind_eq]

lemma atKeyword?_eq (h : Paired m c c') (k : Keyword) : c'.atKeyword? k = c.atKeyword? k := by
  simp only [Cursor.atKeyword?, h.kind_eq]

lemma atEnd_eq (h : Paired m c c') : c'.atEnd = c.atEnd := by
  simp only [Cursor.atEnd, h.kind_eq]

lemma mayEnd_eq (h : Paired m c c') : Grammar.mayEnd c' = Grammar.mayEnd c := by
  simp only [Grammar.mayEnd, h.at?_eq, h.atEnd_eq, h.newline_eq]

lemma advance (h : Paired m c c') : Paired m c.advance c'.advance := by
  obtain ⟨ts, l⟩ := c
  obtain ⟨ts', l'⟩ := c'
  cases h.tokens with
  | nil => exact h
  | @cons t t' us us' twin later =>
    cases ends : t.kind.isEndOfInput with
    | true => simpa only [Cursor.advance, twin.kind, ends, if_true] using h
    | false =>
      have stop : t'.span.stop = m.stop t.span.stop := by rw [twin.span ends]; rfl
      simp only [Cursor.advance, twin.kind, ends]
      exact ⟨later, stop⟩

lemma spanFrom_eq (h : Paired m c c') (s : Span) :
    c'.spanFrom (m.span s) = m.span (c.spanFrom s) := by
  simp only [Cursor.spanFrom, Displacement.span, h.lastStop, m.stop_mono.map_max]

/-- From the token at hand to another cursor. -/
lemma from_eq {c₁ c₁' : Cursor} (h : Paired m c c') (more : c.atEnd = false)
    (h₁ : Paired m c₁ c₁') : c₁'.spanFrom c'.span = m.span (c₁.spanFrom c.span) := by
  rw [h.span_eq more, h₁.spanFrom_eq]

/-- From the token at hand to the end of a phrase. -/
lemma merge_eq (h : Paired m c c') (more : c.atEnd = false) (p : Phrase) :
    c'.span.merge (m.phrase p).span = m.span (c.span.merge p.span) := by
  rw [h.span_eq more, m.span_phrase, m.span_merge]

end Cursor.Paired

namespace Grammar

open Cursor

variable {m : Displacement} {α β : Type}

/-- Both were read, with related results, or both were refused for the same reason. -/
def Alike (post : α → α → Prop) : Result α → Result α → Prop
  | .ok a, .ok a' => post a a'
  | .error e, .error e' => e'.fault = e.fault
  | _, _ => False

lemma Alike.bind {post : α → α → Prop} {post' : β → β → Prop} {r r' : Result α}
    {f f' : α → Result β} (h : Alike post r r')
    (next : ∀ a a', post a a' → Alike post' (f a) (f' a')) : Alike post' (r >>= f) (r' >>= f') := by
  cases r with
  | ok a =>
    cases r' with
    | ok a' => exact next a a' h
    | error e' => exact h.elim
  | error e =>
    cases r' with
    | ok a' => exact h.elim
    | error e' => exact h

lemma Alike.map {post : α → α → Prop} {post' : β → β → Prop} {r r' : Result α} {f f' : α → β}
    (h : Alike post r r') (next : ∀ a a', post a a' → post' (f a) (f' a')) :
    Alike post' (r.map f) (r'.map f') := by
  cases r with
  | ok a =>
    cases r' with
    | ok a' => exact next a a' h
    | error e' => exact h.elim
  | error e =>
    cases r' with
    | ok a' => exact h.elim
    | error e' => exact h

lemma Alike.exists_ok {post : α → α → Prop} {a : α} {r' : Result α} (h : Alike post (.ok a) r') :
    ∃ a', r' = .ok a' ∧ post a a' := by
  cases r' with
  | ok a' => exact ⟨a', rfl, h⟩
  | error e' => exact h.elim

/-- What was read was read. -/
lemma Alike.and_ok {post : α → α → Prop} {r r' : Result α} (h : Alike post r r') :
    Alike (fun a a' => r = .ok a ∧ post a a') r r' := by
  cases r with
  | ok a =>
    cases r' with
    | ok a' => exact ⟨rfl, h⟩
    | error e' => exact h.elim
  | error e =>
    cases r' with
    | ok a' => exact h.elim
    | error e' => exact h

/-- What comes after either of two parts. -/
lemma Alike.bind_ite {p : Prop} [Decidable p] {post : α → α → Prop} {post' : β → β → Prop}
    {r r' s s' : Result α} {f f' : α → Result β}
    (h : Alike post (if p then r else s) (if p then r' else s'))
    (next : ∀ a a', post a a' → Alike post' (f a) (f' a')) :
    Alike post' (if p then r >>= f else s >>= f) (if p then r' >>= f' else s' >>= f') := by
  by_cases hp : p
  · rw [if_pos hp, if_pos hp] at h ⊢
    exact h.bind next
  · rw [if_neg hp, if_neg hp] at h ⊢
    exact h.bind next

/-- What was read is the image of the other, and the cursors are at the same place. -/
inductive Carried (m : Displacement) (image : α → α) : α × Cursor → α × Cursor → Prop
  | intro {a : α} {c c' : Cursor} (h : Paired m c c') : Carried m image (a, c) (image a, c')

lemma Carried.of_eq {image : α → α} {a a' : α} {c c' : Cursor} (h : Paired m c c')
    (eq : a' = image a) : Carried m image (a, c) (a', c') := by
  subst eq
  exact .intro h

/-- A phrase whose span and sub-phrases are the images of those of the other. -/
lemma Carried.node {c c' : Cursor} (h : Paired m c c') {span span' : Span}
    (eq : span' = m.span span) {kind : NodeKind Phrase} :
    Carried m m.phrase (⟨span, kind⟩, c) (⟨span', kind.map m.phrase⟩, c') := by
  refine .of_eq h ?_
  rw [m.phrase_mk, eq]

variable {c c' : Cursor}

lemma checkTarget_alike (p : Phrase) :
    Alike (fun _ _ => True) (checkTarget p) (checkTarget (m.phrase p)) := by
  simp only [checkTarget, m.kind_phrase]
  cases p.kind <;> trivial

section Paired

variable (h : Paired m c c')
include h

lemma unexpected_alike (expected : Expected) :
    (c'.unexpected expected).fault = (c.unexpected expected).fault := by
  simp only [Cursor.unexpected, h.kind_eq]

lemma expect_alike (p : Punct) :
    Alike (fun a a' => c.atEnd = false ∧ Paired m a a') (c.expect p) (c'.expect p) := by
  simp only [Cursor.expect, h.at?_eq]
  split
  · rename_i at_p
    exact ⟨not_atEnd_of_at? at_p, h.advance⟩
  · exact unexpected_alike h _

lemma bindingIdentifier_alike :
    Alike (Carried m m.phrase) (bindingIdentifier c) (bindingIdentifier c') := by
  simp only [bindingIdentifier, h.kind_eq]
  split
  · rename_i name token
    exact .node h.advance (h.span_eq (not_atEnd_of_kind_eq token rfl))
  · exact unexpected_alike h _

lemma propertyName_alike :
    Alike (Carried m m.phrase) (propertyName c) (propertyName c') := by
  simp only [propertyName, h.kind_eq]
  split
  case h_3 => exact unexpected_alike h _
  all_goals
    rename_i name token
    exact .node h.advance (h.span_eq (not_atEnd_of_kind_eq token rfl))

lemma propertyKey_alike :
    Alike (fun x x' => c.atEnd = false ∧ Carried m id x x') (propertyKey c) (propertyKey c') := by
  simp only [propertyKey, h.kind_eq]
  split
  case h_5 => exact unexpected_alike h _
  all_goals
    rename_i name token
    exact ⟨not_atEnd_of_kind_eq token rfl, .intro h.advance⟩

lemma refuseArrow_alike : Alike (fun _ _ => True) (refuseArrow c) (refuseArrow c') := by
  simp only [refuseArrow, h.at?_eq]
  split <;> trivial

lemma endStatement_alike : Alike (Paired m) (endStatement c) (endStatement c') := by
  simp only [endStatement, h.at?_eq, h.mayEnd_eq]
  split
  · exact h.advance
  · split
    · exact h
    · exact (refuseArrow_alike h).bind fun _ _ _ => unexpected_alike h _

lemma parameters_alike (d : Nat) :
    Alike (Carried m (List.map m.phrase)) (parameters d c) (parameters d c') := by
  induction d generalizing c c' with
  | zero => rfl
  | succ d ih =>
    rw [parameters, parameters, h.at?_eq]
    split
    · exact .intro h
    · refine (bindingIdentifier_alike h).bind ?_
      rintro _ _ ⟨h₁⟩
      dsimp only
      rw [h₁.at?_eq]
      split
      · refine (ih h₁.advance).bind ?_
        rintro _ _ ⟨h₂⟩
        exact .intro h₂
      · exact .intro h₁

end Paired

end Grammar

end ScriptDebugger
