import ScriptDebugger.Proofs.Syntax.Spelled

/-!
# Brackets within spans

The span of a node runs from its first token to its last one, or begins or ends
with the span of an operand. Parentheses around an operand are no part of its
span, so a node that takes over an edge of an operand leaves parentheses behind
there. With those given back its tokens are balanced (`Tree.balanced_of_parse`),
and the nodes whose edges are their own have balanced tokens as they are.
-/

namespace ScriptDebugger

/-- Whether a token lies in a span; the end of input lies in none. -/
def Span.holds (s : Span) (u : Token) : Bool :=
  decide (s.start ≤ u.span.start) && decide (u.span.stop ≤ s.stop) && !u.kind.isEndOfInput

/-- The tokens of a text that lie in a span. -/
def Span.tokens (s : Span) (all : List Token) : List Token := all.filter s.holds

namespace Token

/-- Tokens that do not overlap, none of them empty. -/
structure Apart (us : List Token) : Prop where
  pairwise : us.Pairwise fun u v => u.span.stop ≤ v.span.start
  nonempty : ∀ u ∈ us, u.span.start < u.span.stop

/-- The brackets among tokens as if these were only those. -/
def Nests (us : List Token) (bs : List Punct) : Prop :=
  ∀ stack, (us.map Token.kind).foldlM TokenKind.nest stack =
    (bs.map TokenKind.punct).foldlM TokenKind.nest stack

/-- A span begins with a token of a list and ends with one. -/
structure Bounds (us : List Token) (s : Span) : Prop where
  start : ∃ u ∈ us, u.span.start = s.start
  stop : ∃ u ∈ us, u.span.stop = s.stop

variable {us vs ws : List Token} {u : Token} {s s' : Span} {bs bs' : List Punct}

namespace Apart

lemma sublist (h : Apart us) (sub : vs.Sublist us) : Apart vs where
  pairwise := h.pairwise.sublist sub
  nonempty := fun u hu => h.nonempty u (sub.subset hu)

lemma left (h : Apart (us ++ vs)) : Apart us := h.sublist (List.sublist_append_left us vs)

lemma right (h : Apart (us ++ vs)) : Apart vs := h.sublist (List.sublist_append_right us vs)

/-- What begins among the first tokens and ends among the last ones. -/
lemma merge_eq (h : Apart (us ++ vs)) (hs : Bounds us s) (hs' : Bounds vs s') :
    s.merge s' = ⟨s.start, s'.stop⟩ := by
  obtain ⟨⟨u, hu, start⟩, ⟨u', hu', stop⟩⟩ := hs
  obtain ⟨⟨v, hv, start'⟩, ⟨v', hv', stop'⟩⟩ := hs'
  have cross := (List.pairwise_append.mp h.pairwise).2.2
  have := cross u hu v hv
  have := cross u' hu' v' hv'
  have := h.nonempty u (List.mem_append_left _ hu)
  have := h.nonempty v' (List.mem_append_right _ hv')
  rw [Span.merge, Nat.min_eq_left (by omega), Nat.max_eq_right (by omega)]

/-- The last token stops last. -/
lemma le_last (h : Apart us) {n : Nat} (last : us.getLast?.map (·.span.stop) = some n)
    (hu : u ∈ us) : u.span.stop ≤ n := by
  obtain ⟨v, hv, rfl⟩ := Option.map_eq_some_iff.mp last
  obtain ⟨front, rfl⟩ := List.getLast?_eq_some_iff.mp hv
  rcases List.mem_append.mp hu with hu | hu
  · have := (List.pairwise_append.mp h.pairwise).2.2 u hu v (List.mem_singleton_self v)
    have := h.nonempty v (List.mem_append_right _ (List.mem_singleton_self v))
    omega
  · rw [List.mem_singleton.mp hu]

end Apart

lemma Nests.append (h : Nests us bs) (h' : Nests vs bs') : Nests (us ++ vs) (bs ++ bs') := by
  intro stack
  rw [List.map_append, List.map_append, List.foldlM_append, List.foldlM_append, h stack]
  exact congrArg _ (funext h')

lemma nests_nil : Nests [] [] := fun _ => rfl

lemma nests_of_kind {b : Punct} (h : u.kind = .punct b) : Nests [u] [b] := by
  intro stack
  rw [List.map_singleton, List.map_singleton, h]

lemma nests_of_neutral (h : ∀ stack, TokenKind.nest stack u.kind = some stack) : Nests [u] [] := by
  intro stack
  rw [List.map_singleton, List.foldlM_cons, h stack]
  rfl

/-- What is balanced as brackets only. -/
lemma Nests.cancel (h : Nests us bs) (balanced : TokenKind.Balanced (bs.map .punct)) :
    Nests us [] := by
  intro stack
  rw [h stack, balanced.foldlM_nest stack]
  rfl

lemma Nests.balanced (h : Nests us []) : TokenKind.Balanced (us.map Token.kind) := h []

lemma bounds_single (u : Token) : Bounds [u] u.span := ⟨⟨u, by simp, rfl⟩, ⟨u, by simp, rfl⟩⟩

lemma Bounds.subset (h : Bounds us s) (sub : us ⊆ vs) : Bounds vs s := by
  obtain ⟨⟨u, hu, start⟩, ⟨v, hv, stop⟩⟩ := h
  exact ⟨⟨u, sub hu, start⟩, ⟨v, sub hv, stop⟩⟩

end Token

namespace TokenKind

lemma nest_of_isSilent {k : TokenKind} (h : k.isSilent = true) (stack : List Punct) :
    nest stack k = some stack := by
  cases k with
  | punct p =>
    cases p <;> first | rfl | cases h
  | _ => rfl

lemma nest_of_isAtom {k : TokenKind} (h : k.isAtom = true) (stack : List Punct) :
    nest stack k = some stack := by
  cases k with
  | punct p => cases h
  | _ => rfl

end TokenKind

namespace Phrase

open Token

/-- The tokens `mid` run from the start of the span of a phrase to its stop, and parentheses are
around them. -/
structure Framed (p : Phrase) (ls mid rs : List Token) : Prop where
  opening : ∀ u ∈ ls, u.kind = .punct .leftParen
  closing : ∀ u ∈ rs, u.kind = .punct .rightParen
  start : ∃ u rest, mid = u :: rest ∧ u.span.start = p.span.start
  stop : ∃ front u, mid = front ++ [u] ∧ u.span.stop = p.span.stop

/-- The tokens are those of a phrase, with all parentheses around it. -/
def Stands (us : List Token) (p : Phrase) : Prop :=
  ∃ ls mid rs, us = ls ++ (mid ++ rs) ∧ p.Framed ls mid rs

/-- The tokens are those of a phrase alone. They are balanced, and all of them are in its span but
for parentheses at an edge that it takes over. -/
structure Owns (us : List Token) (p : Phrase) : Prop where
  nests : Nests us []
  frame : ∃ ls mid rs, us = ls ++ (mid ++ rs) ∧ p.Framed ls mid rs ∧
    (p.kind.beginsWithin = false → ls = []) ∧ (p.kind.endsWithin = false → rs = [])

/-- Every phrase within another has tokens of its own among those of the other. -/
def Held (us : List Token) (p : Phrase) : Prop := ∀ q, Within q p → ∃ vs, vs <:+: us ∧ Owns vs q

variable {us vs : List Token} {p q l r : Phrase} {kind : NodeKind Phrase} {s : Span} {u v : Token}

lemma Stands.bounds (h : Stands us p) : Bounds us p.span := by
  obtain ⟨ls, mid, rs, rfl, frame⟩ := h
  obtain ⟨u, rest, hu, start⟩ := frame.start
  obtain ⟨front, v, hv, stop⟩ := frame.stop
  have first : u ∈ mid := hu ▸ List.mem_cons_self
  have last : v ∈ mid := hv ▸ List.mem_append_right _ List.mem_cons_self
  exact ⟨⟨u, by simp [first], start⟩, ⟨v, by simp [last], stop⟩⟩

lemma Owns.stands (h : Owns us p) : Stands us p := by
  obtain ⟨ls, mid, rs, split, frame, -⟩ := h.frame
  exact ⟨ls, mid, rs, split, frame⟩

lemma Held.mono (h : Held us p) (sub : us <:+: vs) : Held vs p := by
  intro q within
  obtain ⟨ws, inner, owns⟩ := h q within
  exact ⟨ws, inner.trans sub, owns⟩

lemma Owns.held (h : Owns us p) (inner : ∀ c ∈ p.children, Held us c) : Held us p := by
  intro q within
  cases within with
  | self => exact ⟨us, List.infix_rfl, h⟩
  | child within hc => exact inner _ hc q within

/-- In parentheses. -/
lemma Stands.paren (h : Stands us p) (open_ : u.kind = .punct .leftParen)
    (close : v.kind = .punct .rightParen) : Stands (u :: (us ++ [v])) p := by
  obtain ⟨ls, mid, rs, rfl, frame⟩ := h
  refine ⟨u :: ls, mid, rs ++ [v], by simp, ?_, ?_, frame.start, frame.stop⟩
  · exact List.forall_mem_cons.mpr ⟨open_, frame.opening⟩
  · exact List.forall_mem_append.mpr ⟨frame.closing, List.forall_mem_singleton.mpr close⟩

/-- All tokens from the first to the last. -/
lemma owns_whole (nests : Nests us []) (first : us.head?.map (·.span.start) = some s.start)
    (last : us.getLast?.map (·.span.stop) = some s.stop) : Owns us ⟨s, kind⟩ := by
  obtain ⟨u, hu, start⟩ := Option.map_eq_some_iff.mp first
  obtain ⟨v, hv, stop⟩ := Option.map_eq_some_iff.mp last
  obtain ⟨rest, hrest⟩ := List.head?_eq_some_iff.mp hu
  obtain ⟨front, hfront⟩ := List.getLast?_eq_some_iff.mp hv
  refine ⟨nests, [], us, [], by simp, ?_, fun _ => rfl, fun _ => rfl⟩
  exact ⟨List.forall_mem_nil _, List.forall_mem_nil _, ⟨u, rest, hrest, start⟩,
    ⟨front, v, hfront, stop⟩⟩

section Edges

variable (nests : Nests us []) (nests' : Nests vs [])
include nests nests'

/-- From an operand to the last token. -/
lemma owns_from (hl : Stands us l) (apart : Apart (us ++ vs)) {n : Nat}
    (last : (us ++ vs).getLast?.map (·.span.stop) = some n) (begins : kind.beginsWithin = true) :
    Owns (us ++ vs) ⟨⟨l.span.start, max n l.span.stop⟩, kind⟩ := by
  refine ⟨nests.append nests', ?_⟩
  have bound : l.span.stop ≤ n := by
    obtain ⟨-, ⟨w, hw, stop⟩⟩ := hl.bounds
    exact stop ▸ apart.le_last last (List.mem_append_left _ hw)
  obtain ⟨ls, mid, rs, rfl, frame⟩ := hl
  obtain ⟨u, rest, rfl, start⟩ := frame.start
  obtain ⟨v, hv, stop⟩ := Option.map_eq_some_iff.mp last
  have inner : (u :: (rest ++ rs ++ vs)).getLast? = some v := by
    rw [← hv]
    simp [List.getLast?_append, List.getLast?_cons]
  obtain ⟨front, hfront⟩ := List.getLast?_eq_some_iff.mp inner
  refine ⟨ls, u :: (rest ++ rs ++ vs), [], by simp, ⟨frame.opening, List.forall_mem_nil _,
    ⟨u, _, rfl, start⟩, ⟨front, v, hfront, ?_⟩⟩, ?_, fun _ => rfl⟩
  · rw [stop]
    exact (Nat.max_eq_left bound).symm
  · intro edge
    cases edge.symm.trans begins

/-- From a token to the end of an operand. -/
lemma owns_to (hr : Stands vs r) (apart : Apart (us ++ vs)) (first : us.head? = some u)
    (ends : kind.endsWithin = true) : Owns (us ++ vs) ⟨u.span.merge r.span, kind⟩ := by
  refine ⟨nests.append nests', ?_⟩
  obtain ⟨rest, rfl⟩ := List.head?_eq_some_iff.mp first
  have bounds : Bounds (u :: rest) u.span := (bounds_single u).subset (by simp)
  have merged := apart.merge_eq bounds hr.bounds
  obtain ⟨ls, mid, rs, rfl, frame⟩ := hr
  obtain ⟨front, v, rfl, stop⟩ := frame.stop
  refine ⟨[], u :: (rest ++ ls ++ front ++ [v]), rs, by simp, ⟨List.forall_mem_nil _,
    frame.closing, ⟨u, _, rfl, ?_⟩, ⟨u :: (rest ++ ls ++ front), v, by simp, ?_⟩⟩, fun _ => rfl, ?_⟩
  · show u.span.start = (u.span.merge r.span).start
    rw [merged]
  · show v.span.stop = (u.span.merge r.span).stop
    rw [merged, stop]
  · intro edge
    cases edge.symm.trans ends

end Edges

/-- From one operand to another. -/
lemma owns_between {ms : List Token} (nests : Nests us []) (middle : Nests ms [])
    (nests' : Nests vs []) (hl : Stands us l) (hr : Stands vs r) (apart : Apart (us ++ (ms ++ vs)))
    (begins : kind.beginsWithin = true) (ends : kind.endsWithin = true) :
    Owns (us ++ (ms ++ vs)) ⟨l.span.merge r.span, kind⟩ := by
  refine ⟨nests.append (middle.append nests'), ?_⟩
  have bounds : Bounds (ms ++ vs) r.span := hr.bounds.subset (List.subset_append_right _ _)
  have merged := apart.merge_eq hl.bounds bounds
  obtain ⟨ls, mid, rs, rfl, frame⟩ := hl
  obtain ⟨ls', mid', rs', rfl, frame'⟩ := hr
  obtain ⟨u, rest, rfl, start⟩ := frame.start
  obtain ⟨front, v, rfl, stop⟩ := frame'.stop
  refine ⟨ls, u :: (rest ++ rs ++ ms ++ ls' ++ front ++ [v]), rs', by simp, ⟨frame.opening,
    frame'.closing, ⟨u, _, rfl, ?_⟩, ⟨u :: (rest ++ rs ++ ms ++ ls' ++ front), v, by simp, ?_⟩⟩,
    ?_, ?_⟩
  · show u.span.start = (l.span.merge r.span).start
    rw [merged, start]
  · show v.span.stop = (l.span.merge r.span).stop
    rw [merged, stop]
  · intro edge
    cases edge.symm.trans begins
  · intro edge
    cases edge.symm.trans ends

end Phrase

namespace Cursor.Consumes

variable {c c' : Cursor} {us : List Token}

lemma head? (h : c.Consumes us c') (some : us ≠ []) :
    us.head?.map (·.span.start) = .some c.span.start := by
  obtain ⟨u, rest, rfl⟩ := List.exists_cons_of_ne_nil some
  rw [Cursor.span, Cursor.current, h.tokens]
  rfl

lemma getLast? (h : c.Consumes us c') (some : us ≠ []) :
    us.getLast?.map (·.span.stop) = .some c'.lastStop := by
  rw [h.lastStop, Token.stopAfter, List.getLast?_eq_some_getLast some]
  rfl

end Cursor.Consumes

namespace Grammar

open Cursor Phrase Token

/-- The brackets of a piece that belong to no phrase of it. -/
def Piece.brackets : Piece → List Punct
  | .phrase _ => []
  | .row bs _ => bs

/-- The tokens of a piece hold its phrases. -/
def Piece.Lies (us : List Token) : Piece → Prop
  | .phrase p => Phrase.Stands us p ∧ Held us p
  | .row _ ps => ∀ p ∈ ps, Held us p

/-- The tokens from one cursor up to another are those of a piece. -/
structure Covers (c : Cursor) (us : List Token) (x : Piece) (c' : Cursor) : Prop where
  consumes : c.Consumes us c'
  nests : Nests us x.brackets
  lies : Apart us → x.Lies us

variable {c c' c₁ c₂ : Cursor} {us vs ws : List Token} {x : Piece} {bs bs' : List Punct}
  {p q l r : Phrase} {ps qs : List Phrase} {kind : NodeKind Phrase} {s : Span}

namespace Covers

lemma append (h : Covers c us (.row bs ps) c₁) (h' : Covers c₁ vs (.row bs' qs) c₂) :
    Covers c (us ++ vs) (.row (bs ++ bs') (ps ++ qs)) c₂ where
  consumes := h.consumes.append h'.consumes
  nests := h.nests.append h'.nests
  lies := by
    intro apart p hp
    rcases List.mem_append.mp hp with hp | hp
    · exact (h.lies apart.left p hp).mono (List.prefix_append us vs).isInfix
    · exact (h'.lies apart.right p hp).mono (List.suffix_append us vs).isInfix

lemma single (h : Covers c us (.phrase p) c') : Covers c us (.row [] [p]) c' where
  consumes := h.consumes
  nests := h.nests
  lies := fun apart => List.forall_mem_singleton.mpr (h.lies apart).2

/-- One token without a phrase. -/
lemma token (more : c.atEnd = false) (nests : Nests [c.current] bs) :
    Covers c [c.current] (.row bs []) c.advance where
  consumes := .token more
  nests := nests
  lies := fun _ => List.forall_mem_nil _

lemma silent (h : c.kind.isSilent = true) : Covers c [c.current] (.row [] []) c.advance :=
  token (not_atEnd_of_isSilent h) (nests_of_neutral (TokenKind.nest_of_isSilent h))

/-- A node with tokens of its own. -/
lemma node (h : Covers c us (.row bs kind.children) c') (balanced : Nests us [])
    (owns : Apart us → Owns us ⟨s, kind⟩) : Covers c us (.phrase ⟨s, kind⟩) c' where
  consumes := h.consumes
  nests := balanced
  lies := fun apart => ⟨(owns apart).stands, (owns apart).held (h.lies apart)⟩

/-- A node for one token. -/
lemma leaf (atom : c.kind.isAtom = true) (none : kind.children = []) :
    Covers c [c.current] (.phrase ⟨c.span, kind⟩) c.advance := by
  have nests := nests_of_neutral (TokenKind.nest_of_isAtom atom)
  have shown : Covers c [c.current] (.row [] kind.children) c.advance := by
    rw [none]
    exact token (not_atEnd_of_kind TokenKind.isAtom rfl atom) nests
  exact shown.node nests fun _ => owns_whole nests rfl rfl

/-- Parentheses around a phrase. -/
lemma paren (token : c.at? .leftParen = true) (h : Covers c.advance us (.phrase p) c')
    (close : c'.at? .rightParen = true) :
    Covers c (c.current :: (us ++ [c'.current])) (.phrase p) c'.advance where
  consumes :=
    (Consumes.token (not_atEnd_of_at? token)).append
      (h.consumes.append (.token (not_atEnd_of_at? close)))
  nests := by
    have inside := h.nests.append (nests_of_kind (kind_of_at? close))
    exact ((nests_of_kind (kind_of_at? token)).append inside).cancel rfl
  lies := by
    intro apart
    have sub : us <:+: c.current :: (us ++ [c'.current]) := ⟨[c.current], [c'.current], rfl⟩
    obtain ⟨stands, held⟩ := h.lies (apart.sublist sub.sublist)
    exact ⟨stands.paren (kind_of_at? token) (kind_of_at? close), held.mono sub⟩

/-- From one sub-phrase to another. -/
lemma joined {ms : List Token} (left : Covers c us (.phrase l) c₁)
    (middle : Covers c₁ ms (.row [] ps) c₂) (right : Covers c₂ vs (.phrase r) c')
    (children : kind.children = l :: (ps ++ [r])) (begins : kind.beginsWithin = true)
    (ends : kind.endsWithin = true) :
    Covers c (us ++ (ms ++ vs)) (.phrase ⟨l.span.merge r.span, kind⟩) c' := by
  have parts : Covers c (us ++ (ms ++ vs)) (.row [] kind.children) c' := by
    rw [children]
    exact left.single.append (middle.append right.single)
  refine parts.node parts.nests fun apart => ?_
  exact owns_between left.nests middle.nests right.nests (left.lies apart.left).1
    (right.lies apart.right.right).1 apart begins ends

/-- From a sub-phrase to the last token. -/
lemma extended (left : Covers c us (.phrase l) c₁) (rest : Covers c₁ vs (.row bs ps) c')
    (balanced : TokenKind.Balanced (bs.map .punct)) (children : kind.children = l :: ps)
    (begins : kind.beginsWithin = true) :
    Covers c (us ++ vs) (.phrase ⟨c'.spanFrom l.span, kind⟩) c' := by
  have parts : Covers c (us ++ vs) (.row bs kind.children) c' := by
    rw [children]
    exact left.single.append rest
  refine parts.node (parts.nests.cancel balanced) fun apart => ?_
  have stands := (left.lies apart.left).1
  obtain ⟨⟨u, hu, -⟩, -⟩ := stands.bounds
  have some : us ++ vs ≠ [] := List.ne_nil_of_mem (List.mem_append_left vs hu)
  exact owns_from left.nests (rest.nests.cancel balanced) stands apart
    (parts.consumes.getLast? some) begins

/-- From the first token to the end of the only sub-phrase. -/
lemma headed (first : Covers c us (.row [] []) c₁) (some : us.head? = some c.current)
    (right : Covers c₁ vs (.phrase r) c') (children : kind.children = [r])
    (ends : kind.endsWithin = true) :
    Covers c (us ++ vs) (.phrase ⟨c.span.merge r.span, kind⟩) c' := by
  have parts : Covers c (us ++ vs) (.row [] kind.children) c' := by
    rw [children]
    exact first.append right.single
  refine parts.node parts.nests fun apart => ?_
  exact owns_to first.nests right.nests (right.lies apart.right).1 apart some ends

/-- From the only sub-phrase to the token behind it. -/
lemma tailed (left : Covers c us (.phrase l) c') (token : c'.kind.isSilent = true)
    (children : kind.children = [l]) (begins : kind.beginsWithin = true) :
    Covers c (us ++ [c'.current]) (.phrase ⟨l.span.merge c'.span, kind⟩) c'.advance := by
  have last := Covers.silent token
  have parts : Covers c (us ++ [c'.current]) (.row [] kind.children) c'.advance := by
    rw [children]
    exact left.single.append last
  refine parts.node parts.nests fun apart => ?_
  have stands := (left.lies apart.left).1
  have merged := apart.merge_eq stands.bounds (bounds_single c'.current)
  have bound : l.span.stop ≤ c'.span.stop :=
    (Nat.le_max_left _ _).trans (congrArg Span.stop merged).le
  have stop : (us ++ [c'.current]).getLast?.map (·.span.stop) = some c'.span.stop := by
    rw [List.getLast?_concat]
    rfl
  have owns := owns_from left.nests last.nests stands apart stop begins
  rw [Nat.max_eq_left bound] at owns
  rw [show l.span.merge c'.span = _ from merged]
  exact owns

/-- From the first token to the last one. -/
lemma whole (h : Covers c us (.row bs kind.children) c') (less : c'.left < c.left)
    (balanced : TokenKind.Balanced (bs.map .punct)) :
    Covers c us (.phrase ⟨c'.spanFrom c.span, kind⟩) c' := by
  have some : us ≠ [] := by
    rintro rfl
    rw [Cursor.left, Cursor.left, h.consumes.tokens, List.nil_append] at less
    exact Nat.lt_irrefl _ less
  have nests := h.nests.cancel balanced
  refine h.node nests fun apart => owns_whole nests (h.consumes.head? some) ?_
  have last := h.consumes.getLast? some
  have first : c.current ∈ us := by
    obtain ⟨u, rest, rfl⟩ := List.exists_cons_of_ne_nil some
    rw [Cursor.current, h.consumes.tokens]
    exact List.mem_cons_self
  have bound : c.span.stop ≤ c'.lastStop := apart.le_last last first
  rw [last, Cursor.spanFrom, Nat.max_eq_left bound]

end Covers

/-- The tokens of what is spelled. -/
theorem Spells.covers (h : Spells c x c') : ∃ us, Covers c us x c' := by
  induction h with
  | nil => exact ⟨[], .nil, nests_nil, fun _ => List.forall_mem_nil _⟩
  | append _ _ first rest =>
    obtain ⟨us, first⟩ := first
    obtain ⟨vs, rest⟩ := rest
    exact ⟨us ++ vs, first.append rest⟩
  | single _ phrase =>
    obtain ⟨us, phrase⟩ := phrase
    exact ⟨us, phrase.single⟩
  | silent token => exact ⟨_, .silent token⟩
  | bracket token _ =>
    exact ⟨_, .token (not_atEnd_of_at? token) (nests_of_kind (kind_of_at? token))⟩
  | paren token _ close inner =>
    obtain ⟨us, inner⟩ := inner
    exact ⟨_, inner.paren token close⟩
  | identifier token => exact ⟨_, .leaf (by rw [token]; rfl) rfl⟩
  | literal token => exact ⟨_, .leaf (isAtom_of_literal? token) rfl⟩
  | property key colon _ value =>
    obtain ⟨-, atom, rfl⟩ := keyText?_of_propertyKey key
    obtain ⟨us, value⟩ := value
    have key := Covers.token (not_atEnd_of_kind TokenKind.isAtom rfl atom)
      (nests_of_neutral (TokenKind.nest_of_isAtom atom))
    have first := key.append (.silent (isSilent_of_at? colon rfl))
    exact ⟨_, first.headed rfl value rfl rfl⟩
  | access _ dot name object =>
    obtain ⟨text, token, rfl, rfl⟩ := exists_of_propertyName name
    obtain ⟨us, object⟩ := object
    have named : ∃ vs, Covers _ vs (.phrase ⟨_, .identifier text⟩) _ :=
      ⟨_, .leaf (isAtom_of_name token) rfl⟩
    obtain ⟨vs, named⟩ := named
    have last := (Covers.silent (isSilent_of_at? dot rfl)).append named.single
    exact ⟨_, object.extended last rfl rfl rfl⟩
  | joined _ _ _ children begins ends left middle right =>
    obtain ⟨us, left⟩ := left
    obtain ⟨ms, middle⟩ := middle
    obtain ⟨vs, right⟩ := right
    exact ⟨_, left.joined middle right children begins ends⟩
  | headed token _ children ends _ operand =>
    obtain ⟨us, operand⟩ := operand
    exact ⟨_, (Covers.silent token).headed rfl operand children ends⟩
  | tailed _ token children begins operand =>
    obtain ⟨us, operand⟩ := operand
    exact ⟨_, operand.tailed token children begins⟩
  | extended _ _ balanced children begins left rest =>
    obtain ⟨us, left⟩ := left
    obtain ⟨vs, rest⟩ := rest
    exact ⟨_, left.extended rest balanced children begins⟩
  | whole _ less balanced children _ parts =>
    obtain ⟨us, parts⟩ := parts
    subst children
    exact ⟨us, parts.whole less balanced⟩

end Grammar

/-- The tokens in a span are balanced together with the opening parentheses `ls` right before it
and the closing ones `rs` right behind it. -/
structure Span.BalancedWith (all : List Token) (s : Span) (ls rs : List Token) : Prop where
  around : ∃ before after, all = before ++ (ls ++ (s.tokens all ++ (rs ++ after)))
  opening : ∀ u ∈ ls, u.kind = .punct .leftParen
  closing : ∀ u ∈ rs, u.kind = .punct .rightParen
  balanced : TokenKind.Balanced ((ls ++ (s.tokens all ++ rs)).map Token.kind)

lemma Span.holds_eq_true {s : Span} {u : Token} : s.holds u = true ↔
    (s.start ≤ u.span.start ∧ u.span.stop ≤ s.stop) ∧ u.kind.isEndOfInput = false := by
  simp only [Span.holds, Bool.and_eq_true, decide_eq_true_eq, Bool.not_eq_true']

/-- What runs from the start of a span to its stop is all that lies in it. -/
lemma Span.tokens_eq {xs mid ys : List Token} {s : Span} {lo : Nat}
    (ordered : Token.Ordered lo (xs ++ (mid ++ ys)))
    (start : ∃ u rest, mid = u :: rest ∧ u.span.start = s.start)
    (stop : ∃ front u, mid = front ++ [u] ∧ u.span.stop = s.stop)
    (inside : ∀ u ∈ mid, u.kind.isEndOfInput = false) :
    s.tokens (xs ++ (mid ++ ys)) = mid := by
  have nonempty : ∀ w ∈ xs ++ (mid ++ ys), w.kind.isEndOfInput = false →
      w.span.start < w.span.stop := fun w hw more => ordered.nonempty hw more
  obtain ⟨-, pairwise, before⟩ := List.pairwise_append.mp ordered.pairwise
  obtain ⟨within, -, after⟩ := List.pairwise_append.mp pairwise
  obtain ⟨u, rest, hu, start⟩ := start
  obtain ⟨front, v, hv, stop⟩ := stop
  have first : u ∈ mid := hu ▸ List.mem_cons_self
  have last : v ∈ mid := hv ▸ List.mem_append_right _ List.mem_cons_self
  have left : xs.filter s.holds = [] := by
    refine List.filter_eq_nil_iff.mpr fun w hw holds => ?_
    obtain ⟨⟨_, _⟩, more⟩ := Span.holds_eq_true.mp holds
    have := nonempty w (List.mem_append_left _ hw) more
    have := before w hw u (List.mem_append_left _ first)
    omega
  have right : ys.filter s.holds = [] := by
    refine List.filter_eq_nil_iff.mpr fun w hw holds => ?_
    obtain ⟨⟨_, _⟩, more⟩ := Span.holds_eq_true.mp holds
    have := nonempty w (by simp [hw]) more
    have := after v last w hw
    omega
  have middle : mid.filter s.holds = mid := by
    refine List.filter_eq_self.mpr fun w hw => Span.holds_eq_true.mpr ⟨⟨?_, ?_⟩, inside w hw⟩
    · rcases List.mem_cons.mp (hu ▸ hw) with rfl | later
      · exact start.ge
      · have := (List.pairwise_cons.mp (hu ▸ within)).1 w later
        have := nonempty u (by simp [first]) (inside u first)
        omega
    · rcases List.mem_append.mp (hv ▸ hw) with earlier | same
      · have := (List.pairwise_append.mp (hv ▸ within)).2.2 w earlier v (List.mem_singleton_self v)
        have := nonempty v (by simp [last]) (inside v last)
        omega
      · rw [List.mem_singleton.mp same, stop]
  rw [Span.tokens, List.filter_append, List.filter_append, left, middle, right, List.nil_append,
    List.append_nil]

/-- The span of a phrase whose tokens are among those of a text. -/
lemma Phrase.Owns.balancedWith {all us : List Token} {q : Phrase} {lo : Nat} (h : q.Owns us)
    (ordered : Token.Ordered lo all) (sub : us <:+: all)
    (inside : ∀ u ∈ us, u.kind.isEndOfInput = false) :
    ∃ ls rs, q.span.BalancedWith all ls rs ∧ (q.kind.beginsWithin = false → ls = []) ∧
      (q.kind.endsWithin = false → rs = []) := by
  obtain ⟨ls, mid, rs, rfl, frame, begins, ends⟩ := h.frame
  obtain ⟨before, after, rfl⟩ := sub
  have regroup : before ++ (ls ++ (mid ++ rs)) ++ after =
      (before ++ ls) ++ (mid ++ (rs ++ after)) := by simp
  rw [regroup] at ordered ⊢
  have tokens : q.span.tokens ((before ++ ls) ++ (mid ++ (rs ++ after))) = mid :=
    Span.tokens_eq ordered frame.start frame.stop fun u hu => inside u (by simp [hu])
  refine ⟨ls, rs, ⟨⟨before, after, ?_⟩, frame.opening, frame.closing, ?_⟩, begins, ends⟩
  · rw [tokens, List.append_assoc]
  · rw [tokens]
    exact h.nests.balanced

namespace NodeKind

variable {α β : Type} [Inhabited β] (kind : NodeKind α) (cs : List β)

lemma beginsWithin_fill : (kind.fill cs).beginsWithin = kind.beginsWithin := by
  cases kind <;> rfl

lemma endsWithin_fill : (kind.fill cs).endsWithin = kind.endsWithin := by
  cases kind <;> rfl

end NodeKind

namespace Tree

variable {text : String} {options : ParseOptions} {t : Tree}

/-- The tokens in the span of any node of a text that parses are balanced, once parentheses are
given back at the edges that the node takes over from an operand. -/
theorem balanced_of_parse (h : Tree.parse text options = .ok t) :
    ∃ all, Token.ofText text = .ok all ∧ ∀ id < t.size, ∃ ls rs,
      (t.span id).BalancedWith all ls rs ∧ ((t.kind id).beginsWithin = false → ls = []) ∧
        ((t.kind id).endsWithin = false → rs = []) := by
  obtain ⟨all, body, c, spelled⟩ := spelled_of_parse h
  obtain ⟨us, covers⟩ := spelled.spells.covers
  have split : all = us ++ c.tokens := covers.consumes.tokens
  have ordered := Token.ordered_ofText spelled.lexed
  have inside := covers.consumes.inside
  refine ⟨all, spelled.lexed, fun id hid => ?_⟩
  by_cases inner : id < t.size - 1
  · obtain ⟨p, hp, q, within, placed⟩ := spelled.inner id inner
    have apart : Token.Apart us := by
      refine ⟨(split ▸ ordered.pairwise).sublist (List.sublist_append_left us c.tokens), ?_⟩
      intro u hu
      exact ordered.nonempty (split ▸ List.mem_append_left _ hu) (inside u hu)
    obtain ⟨vs, among, owns⟩ := covers.lies apart p hp q within
    have sub : vs <:+: all := among.trans (split ▸ (List.prefix_append us c.tokens).isInfix)
    obtain ⟨ids, kind, -, span, -⟩ := exists_children_of_placed placed
    rw [span, kind, NodeKind.beginsWithin_fill, NodeKind.endsWithin_fill]
    exact owns.balancedWith ordered sub fun u hu => inside u (among.subset hu)
  · obtain rfl : id = t.size - 1 := by omega
    obtain ⟨ids, -, -, span, -⟩ := exists_children_of_placed spelled.root
    have span : t.span (t.size - 1) = ⟨0, text.utf8ByteSize⟩ := span
    have tokens : (t.span (t.size - 1)).tokens all = us := by
      have kept : us.filter (Span.holds ⟨0, text.utf8ByteSize⟩) = us := by
        refine List.filter_eq_self.mpr fun u hu => Span.holds_eq_true.mpr ⟨⟨?_, ?_⟩, inside u hu⟩
        · exact Nat.zero_le _
        · exact (Token.liesIn_ofText spelled.lexed (split ▸ List.mem_append_left _ hu)).stop_le
      have dropped : c.tokens.filter (Span.holds ⟨0, text.utf8ByteSize⟩) = [] := by
        refine List.filter_eq_nil_iff.mpr fun u hu holds => ?_
        have more := (Span.holds_eq_true.mp holds).2
        rw [spelled.rest u hu] at more
        cases more
      rw [span, Span.tokens, split, List.filter_append, kept, dropped, List.append_nil]
    refine ⟨[], [], ⟨⟨[], c.tokens, ?_⟩, List.forall_mem_nil _, List.forall_mem_nil _, ?_⟩,
      fun _ => rfl, fun _ => rfl⟩
    · rw [tokens]
      exact split
    · rw [tokens, List.append_nil]
      exact covers.nests.balanced

/-- The object of a member access in parentheses: the closing one is in the span of the access, the
opening one is not. -/
theorem unbalanced_member :
    ∃ t all, Tree.parse "(a).b;" = .ok t ∧ Token.ofText "(a).b;" = .ok all ∧
      (t.kind 2).typeName = "MemberExpression" ∧ (t.span 2).slice "(a).b;" = "a).b" ∧
      ¬ TokenKind.Balanced (((t.span 2).tokens all).map Token.kind) := by
  let t := (Tree.parse "(a).b;").toOption.getD default
  let all := (Token.ofText "(a).b;").toOption.getD []
  have parsed : Tree.parse "(a).b;" = .ok t := parse_of_isSome (by decide +kernel)
  obtain ⟨all', body, c, spelled⟩ := spelled_of_parse parsed
  have lexed := spelled.lexed
  have same : all' = all := by simp only [all, lexed, Except.toOption, Option.getD_some]
  refine ⟨t, all, parsed, same ▸ lexed, ?_⟩
  decide +kernel

/-- The opening parenthesis is given back to it. -/
theorem balanced_of_parse_member :
    ∃ t all ls, Tree.parse "(a).b;" = .ok t ∧ Token.ofText "(a).b;" = .ok all ∧
      (t.span 2).BalancedWith all ls [] ∧ ls ≠ [] := by
  let t := (Tree.parse "(a).b;").toOption.getD default
  have parsed : Tree.parse "(a).b;" = .ok t := parse_of_isSome (by decide +kernel)
  obtain ⟨all, lexed, balanced⟩ := balanced_of_parse parsed
  obtain ⟨ls, rs, with_, -, own⟩ := balanced 2 (by decide +kernel)
  obtain rfl := own (by decide +kernel)
  refine ⟨t, all, ls, parsed, lexed, with_, ?_⟩
  rintro rfl
  have balanced := with_.balanced
  have kinds : (Token.ofText "(a).b;").toOption.map
      (fun all => decide (TokenKind.Balanced (((t.span 2).tokens all).map Token.kind))) =
        some false := by decide +kernel
  rw [lexed, Except.toOption, Option.map_some, Option.some.injEq, decide_eq_false_iff_not] at kinds
  exact kinds (by simpa using balanced)

end Tree

end ScriptDebugger
