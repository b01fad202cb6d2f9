import ScriptDebugger.Proofs.Syntax.Spelled
import ScriptDebugger.Proofs.Syntax.Traversal

/-!
# Atoms of a text and of its tree

The grammar loses no name, literal or reserved word of a text and shows none of
them twice: the atoms among the tokens are, one for one and in their order, what
the nodes of the tree show before their children do (`Tree.atoms_of_parse`). A
reserved word stands only where a property is named.
-/

namespace ScriptDebugger

/-- The names, literals and reserved words among some tokens. -/
def Token.atoms (us : List Token) : List Token := us.filter (·.kind.isAtom)

namespace Token

variable {u : Token} (us : List Token)

lemma atoms_append (us vs : List Token) : atoms (us ++ vs) = atoms us ++ atoms vs :=
  List.filter_append ..

lemma atoms_cons_of_isAtom (h : u.kind.isAtom = true) : atoms (u :: us) = u :: atoms us :=
  List.filter_cons_of_pos h

lemma atoms_cons_of_not_isAtom (h : u.kind.isAtom = false) : atoms (u :: us) = atoms us :=
  List.filter_cons_of_neg (by simp [h])

end Token

lemma exists_of_forall₂_append {α β : Type} {R : α → β → Prop} {as bs : List α} {cs : List β}
    (h : List.Forall₂ R (as ++ bs) cs) :
    ∃ cs₁ cs₂, cs = cs₁ ++ cs₂ ∧ List.Forall₂ R as cs₁ ∧ List.Forall₂ R bs cs₂ := by
  have split : cs = cs.take as.length ++ cs.drop as.length := (List.take_append_drop _ _).symm
  have length := h.length_eq
  rw [List.length_append] at length
  rw [split] at h
  exact ⟨_, _, split, (forall₂_append_iff (by rw [List.length_take]; omega)).mp h⟩

namespace Tree

/-- What an atom of a text is in its tree. -/
inductive Bears (t : Tree) (u : Token) (id : NodeId) : Prop
  | name {name : String} (token : u.kind = .ident name) (kind : t.kind id = .identifier name)
      (span : t.span id = u.span)
  /-- A reserved word after a point. -/
  | property {word : String} {p object : NodeId} (token : u.kind = .reserved word)
      (kind : t.kind id = .identifier word) (span : t.span id = u.span)
      (parent : t.kind p = .memberExpression object id false)
  | literal {l : Literal} (token : Grammar.literal? u.kind = some l)
      (kind : t.kind id = .literal l) (span : t.span id = u.span)
  | key {key : String} {value : NodeId} (token : u.kind.keyText? = some key)
      (kind : t.kind id = .property key value)

/-- The nodes that show an atom, among those listed. -/
def bearers (t : Tree) (ids : List NodeId) : List NodeId :=
  ids.filter fun id => (t.kind id).bearsAtom

/-- Wherever phrases are numbered in a tree, the atoms among some tokens are those that the nodes
of the phrases show from left to right. -/
def Shows (t : Tree) (us : List Token) (ps : List Phrase) : Prop :=
  ∀ ids, List.Forall₂ (Phrase.Placed t.nodes) ps ids →
    List.Forall₂ t.Bears (Token.atoms us) (t.bearers (ids.flatMap (t.preOrderFrom t.size)))

end Tree

lemma NodeKind.bearsAtom_of_beginsWithin {α : Type} {kind : NodeKind α}
    (h : kind.beginsWithin = true) : kind.bearsAtom = false := by
  cases kind <;> first | rfl | cases h

lemma NodeKind.bearsAtom_fill {α β : Type} [Inhabited β] (kind : NodeKind α) (cs : List β) :
    (kind.fill cs).bearsAtom = kind.bearsAtom := by
  cases kind <;> rfl

namespace Grammar

lemma isAtom_of_isSilent {k : TokenKind} (h : k.isSilent = true) : k.isAtom = false := by
  cases k <;> simp_all [TokenKind.isSilent, TokenKind.isAtom]

end Grammar

namespace Tree

section Bearers

variable {t : Tree} {id : NodeId} (ids : List NodeId)

lemma bearers_append (ids js : List NodeId) :
    t.bearers (ids ++ js) = t.bearers ids ++ t.bearers js :=
  List.filter_append ..

lemma bearers_cons_of_bearsAtom (h : (t.kind id).bearsAtom = true) :
    t.bearers (id :: ids) = id :: t.bearers ids :=
  List.filter_cons_of_pos h

lemma bearers_cons_of_not_bearsAtom (h : (t.kind id).bearsAtom = false) :
    t.bearers (id :: ids) = t.bearers ids :=
  List.filter_cons_of_neg (by simp [h])

end Bearers

variable {t : Tree} {us vs : List Token} {u : Token} {ps qs : List Phrase} {p q : Phrase}
  {id : NodeId} {kind : NodeKind Phrase} {span : Span}

namespace Shows

lemma nil : t.Shows [] [] := by
  rintro _ ⟨⟩
  exact .nil

lemma append (h : t.Shows us ps) (h' : t.Shows vs qs) : t.Shows (us ++ vs) (ps ++ qs) := by
  intro ids placed
  obtain ⟨is, js, rfl, first, second⟩ := exists_of_forall₂_append placed
  rw [Token.atoms_append, List.flatMap_append, bearers_append]
  exact List.rel_append (h is first) (h' js second)

/-- A token that is no atom. -/
lemma silent (plain : u.kind.isAtom = false) : t.Shows [u] [] := by
  rintro _ ⟨⟩
  rw [Token.atoms_cons_of_not_isAtom _ plain]
  exact .nil

section Node

variable (h : t.WellFormed)
include h

/-- The node of a phrase comes before those of its sub-phrases. -/
lemma of_node (single : ∀ id ids, t.kind id = kind.fill ids → t.children id = ids →
      t.span id = span → List.Forall₂ (Phrase.Placed t.nodes) kind.children ids →
      List.Forall₂ t.Bears (Token.atoms us)
        (t.bearers (id :: ids.flatMap (t.preOrderFrom t.size)))) :
    t.Shows us [⟨span, kind⟩] := by
  intro ids placed
  obtain ⟨id, _, own, ⟨⟩, rfl⟩ := List.forall₂_cons_left_iff.mp placed
  obtain ⟨ids, filled, children, spans, inside, below⟩ := exists_children_of_placed own
  have listed : [id].flatMap (t.preOrderFrom t.size) =
      id :: ids.flatMap (t.preOrderFrom t.size) := by
    rw [List.flatMap_singleton, h.preOrderFrom_eq inside, children]
  rw [listed]
  exact single id ids filled children spans below

/-- A node without an atom shows what its children do. -/
lemma plain (inner : t.Shows us kind.children) (plain : kind.bearsAtom = false) :
    t.Shows us [⟨span, kind⟩] := by
  apply of_node h
  intro id ids filled _ _ below
  have own : (t.kind id).bearsAtom = false := by rw [filled, NodeKind.bearsAtom_fill, plain]
  rw [bearers_cons_of_not_bearsAtom _ own]
  exact inner ids below

/-- A node with an atom shows it before what its children do. -/
lemma bears (atom : u.kind.isAtom = true) (inner : t.Shows us kind.children)
    (own : ∀ id ids, t.kind id = kind.fill ids → t.span id = span → t.Bears u id)
    (bears : kind.bearsAtom = true) : t.Shows (u :: us) [⟨span, kind⟩] := by
  apply of_node h
  intro id ids filled _ spans below
  have shown : (t.kind id).bearsAtom = true := by rw [filled, NodeKind.bearsAtom_fill, bears]
  rw [Token.atoms_cons_of_isAtom _ atom, bearers_cons_of_bearsAtom _ shown]
  exact .cons (own id ids filled spans) (inner ids below)

lemma identifier {name : String} (token : u.kind = .ident name) :
    t.Shows [u] [⟨u.span, .identifier name⟩] :=
  bears h (by rw [token]; rfl) .nil (fun _ _ kind span => .name token kind span) rfl

lemma literal {l : Literal} (token : Grammar.literal? u.kind = some l) :
    t.Shows [u] [⟨u.span, .literal l⟩] :=
  bears h (Grammar.isAtom_of_literal? token) .nil (fun _ _ kind span => .literal token kind span)
    rfl

lemma property {k : String} (key : u.kind.keyText? = some k) (atom : u.kind.isAtom = true)
    (value : t.Shows us [p]) : t.Shows (u :: us) [⟨span, .property k p⟩] :=
  bears h atom value (fun _ _ kind _ => .key key kind) rfl

/-- The name after a point. -/
lemma access {name : String} (object : t.Shows us [p])
    (token : u.kind = .ident name ∨ u.kind = .reserved name) :
    t.Shows (us ++ [u]) [⟨span, .memberExpression p ⟨u.span, .identifier name⟩ false⟩] := by
  apply of_node h
  intro id ids filled children _ below
  obtain ⟨o, _, hobject, rest, rfl⟩ := List.forall₂_cons_left_iff.mp below
  obtain ⟨n, _, hname, ⟨⟩, rfl⟩ := List.forall₂_cons_left_iff.mp rest
  obtain ⟨_, kind, none, span, inside, ⟨⟩⟩ := exists_children_of_placed hname
  have named : t.Bears u n := by
    rcases token with token | token
    · exact .name token kind span
    · exact .property token kind span filled
  have plain : (t.kind id).bearsAtom = false := by rw [filled]; rfl
  have shown : (t.kind n).bearsAtom = true := by rw [kind]; rfl
  have atom := Grammar.isAtom_of_name token
  have first := object [o] (.cons hobject .nil)
  rw [List.flatMap_singleton] at first
  have last : t.bearers (t.preOrderFrom t.size n) = [n] := by
    rw [h.preOrderFrom_eq inside, none]
    exact bearers_cons_of_bearsAtom _ shown
  rw [bearers_cons_of_not_bearsAtom _ plain, List.flatMap_cons, List.flatMap_singleton,
    bearers_append, last, Token.atoms_append, Token.atoms_cons_of_isAtom _ atom]
  exact List.rel_append first (.cons named .nil)

end Node

end Shows

end Tree

namespace Grammar

open Cursor

variable {t : Tree} {c c' c₁ : Cursor} {ps qs : List Phrase}

/-- The tokens from one cursor up to another are shown by the nodes of phrases, and none of them
is an arrow. -/
def Shown (t : Tree) (c : Cursor) (ps : List Phrase) (c' : Cursor) : Prop :=
  ∃ us, c.Consumes us c' ∧ (∀ u ∈ us, u.kind ≠ .punct .arrow) ∧ t.Shows us ps

lemma consumes_of_isAtom (h : c.kind.isAtom = true) :
    c.Consumes [c.current] c.advance ∧ c.current.kind ≠ .punct .arrow := by
  refine ⟨.token (not_atEnd_of_kind TokenKind.isAtom rfl h), fun arrow => ?_⟩
  rw [Cursor.kind, arrow] at h
  cases h

namespace Shown

lemma append (h : Shown t c ps c₁) (h' : Shown t c₁ qs c') : Shown t c (ps ++ qs) c' := by
  obtain ⟨us, past, noArrow, shows⟩ := h
  obtain ⟨vs, past', noArrow', shows'⟩ := h'
  exact ⟨us ++ vs, past.append past', List.forall_mem_append.mpr ⟨noArrow, noArrow'⟩,
    shows.append shows'⟩

/-- An atom and what comes after it, which are shown together. -/
lemma atom {us : List Token} (h : c.kind.isAtom = true) (past : c.advance.Consumes us c')
    (noArrow : ∀ u ∈ us, u.kind ≠ .punct .arrow) (shows : t.Shows (c.current :: us) ps) :
    Shown t c ps c' := by
  obtain ⟨first, notArrow⟩ := consumes_of_isAtom h
  exact ⟨_ :: us, first.append past, List.forall_mem_cons.mpr ⟨notArrow, noArrow⟩, shows⟩

/-- A token that is no atom, and what comes after it. -/
lemma skip (more : c.atEnd = false) (noArrow : c.kind ≠ .punct .arrow)
    (plain : c.kind.isAtom = false) (rest : Shown t c.advance ps c') : Shown t c ps c' :=
  append ⟨[c.current], .token more, List.forall_mem_singleton.mpr noArrow, .silent plain⟩ rest

lemma skipSilent (h : c.kind.isSilent = true) (rest : Shown t c.advance ps c') :
    Shown t c ps c' := by
  refine skip (not_atEnd_of_isSilent h) (fun arrow => ?_) (isAtom_of_isSilent h) rest
  rw [arrow] at h
  cases h

lemma skipPunct {b : Punct} (h : c.at? b = true) (noArrow : b ≠ .arrow)
    (rest : Shown t c.advance ps c') : Shown t c ps c' := by
  have kind := kind_of_at? h
  refine skip (not_atEnd_of_at? h) (fun arrow => ?_) (by rw [kind]; rfl) rest
  exact noArrow (TokenKind.punct.inj (kind.symm.trans arrow))

lemma nil : Shown t c [] c := ⟨[], .nil, List.forall_mem_nil _, .nil⟩

lemma plain {kind : NodeKind Phrase} {span : Span} (wellFormed : t.WellFormed)
    (h : Shown t c kind.children c') (plain : kind.bearsAtom = false) :
    Shown t c [⟨span, kind⟩] c' := by
  obtain ⟨us, past, noArrow, shows⟩ := h
  exact ⟨us, past, noArrow, shows.plain wellFormed plain⟩

end Shown

/-- What is spelled is shown. -/
theorem Spells.shown {x : Piece} (h : Spells c x c') (wellFormed : t.WellFormed) :
    Shown t c x.phrases c' := by
  induction h with
  | nil => exact .nil
  | append _ _ first rest => exact first.append rest
  | single _ phrase => exact phrase
  | silent token => exact .skipSilent token .nil
  | bracket token isBracket =>
    refine .skipPunct token ?_ .nil
    rintro rfl
    cases isBracket
  | paren token _ close inner =>
    have rest := inner.append (.skipPunct close (by decide) .nil)
    exact .skipPunct token (by decide) rest
  | identifier token =>
    exact .atom (by rw [token]; rfl) .nil (List.forall_mem_nil _) (.identifier wellFormed token)
  | literal token =>
    exact .atom (isAtom_of_literal? token) .nil (List.forall_mem_nil _)
      (.literal wellFormed token)
  | property key colon _ value =>
    obtain ⟨text, atom, rfl⟩ := keyText?_of_propertyKey key
    obtain ⟨us, past, noArrow, shows⟩ := Shown.skipPunct colon (by decide) value
    exact .atom atom past noArrow (shows.property wellFormed text atom)
  | access _ dot name object =>
    obtain ⟨name, token, rfl, rfl⟩ := exists_of_propertyName name
    obtain ⟨us, past, noArrow, shows⟩ := object.append (.skipPunct dot (by decide) .nil)
    rw [List.append_nil] at shows
    obtain ⟨last, notArrow⟩ := consumes_of_isAtom (isAtom_of_name token)
    have noArrow := List.forall_mem_append.mpr ⟨noArrow, List.forall_mem_singleton.mpr notArrow⟩
    exact ⟨us ++ [_], past.append last, noArrow, shows.access wellFormed token⟩
  | joined _ _ _ children begins _ left middle right =>
    refine .plain wellFormed ?_ (NodeKind.bearsAtom_of_beginsWithin begins)
    rw [children]
    exact left.append (middle.append right)
  | headed token _ children _ plain operand =>
    refine .plain wellFormed ?_ plain
    rw [children]
    exact .skipSilent token operand
  | tailed _ token children begins operand =>
    refine .plain wellFormed ?_ (NodeKind.bearsAtom_of_beginsWithin begins)
    rw [children]
    exact operand.append (.skipSilent token .nil)
  | extended _ _ _ children begins left rest =>
    refine .plain wellFormed ?_ (NodeKind.bearsAtom_of_beginsWithin begins)
    rw [children]
    exact left.append rest
  | whole _ _ _ children plain parts =>
    refine .plain wellFormed ?_ plain
    rw [children]
    exact parts

end Grammar

namespace Tree

/-- Property names and keys. -/
def NamesProperty (t : Tree) (word : String) (id : NodeId) : Prop :=
  (t.kind id = .identifier word ∧ ∃ p object, t.kind p = .memberExpression object id false) ∨
    ∃ value, t.kind id = .property word value

/-- The atoms of a text that parses, in their order, are what the nodes of the tree show, each
before its children. Arrows do not occur, and reserved words only where a property is named. -/
theorem atoms_of_parse {text : String} {options : ParseOptions} {t : Tree}
    (h : Tree.parse text options = .ok t) :
    ∃ all, Token.ofText text = .ok all ∧
      List.Forall₂ t.Bears (Token.atoms all) (t.bearers t.preOrder) ∧
      (∀ u ∈ all, u.kind ≠ .punct .arrow) ∧
      ∀ u ∈ all, ∀ word, u.kind = .reserved word → ∃ id, t.NamesProperty word id := by
  obtain ⟨all, body, c, spelled⟩ := spelled_of_parse h
  obtain ⟨us, past, noArrow, shows⟩ := spelled.spells.shown spelled.wellFormed
  have split : all = us ++ c.tokens := past.tokens
  have quiet : Token.atoms c.tokens = [] := by
    refine List.filter_eq_nil_iff.mpr fun u hu => ?_
    rw [spelled.rest u hu]
    decide
  have shown : List.Forall₂ t.Bears (Token.atoms all) (t.bearers t.preOrder) := by
    have program : t.Shows us [⟨⟨0, text.utf8ByteSize⟩, .program body⟩] :=
      shows.plain spelled.wellFormed rfl
    have whole := program [t.size - 1] (.cons spelled.root .nil)
    rw [List.flatMap_singleton, ← preOrder_of_parse h] at whole
    rwa [split, Token.atoms_append, quiet, List.append_nil]
  refine ⟨all, spelled.lexed, shown, ?_, ?_⟩
  · rw [split]
    refine List.forall_mem_append.mpr ⟨noArrow, fun u hu arrow => ?_⟩
    rw [spelled.rest u hu] at arrow
    cases arrow
  · intro u hu word reserved
    have atom : u ∈ Token.atoms all := List.mem_filter.mpr ⟨hu, by rw [reserved]; rfl⟩
    obtain ⟨id, bears⟩ := exists_left_of_mem shown.flip atom
    refine ⟨id, ?_⟩
    rcases bears with ⟨token⟩ | ⟨token, kind, -, parent⟩ | ⟨token⟩ | ⟨token, kind⟩
    · rw [reserved] at token
      cases token
    · rw [reserved] at token
      cases token
      exact .inl ⟨kind, _, _, parent⟩
    · rw [reserved] at token
      cases token
    · rw [reserved] at token
      cases token
      exact .inr ⟨_, kind⟩

/-- A name, a property, a key and a name again. -/
theorem atoms_of_parse_reserved_key :
    ∃ t all, Tree.parse "o.in = \x7bclass: p\x7d;" = .ok t ∧
      Token.ofText "o.in = \x7bclass: p\x7d;" = .ok all ∧
      List.Forall₂ t.Bears (Token.atoms all) [0, 1, 4, 3] ∧
      (∃ u ∈ all, u.kind = .reserved "class") ∧ ∃ id, t.NamesProperty "class" id := by
  let text := "o.in = \x7bclass: p\x7d;"
  let t := (Tree.parse text).toOption.getD default
  have parsed : Tree.parse text = .ok t := Tree.parse_of_isSome (by decide +kernel)
  have listed : t.bearers t.preOrder = [0, 1, 4, 3] := by decide +kernel
  have words : (Token.ofText text).toOption.map (·.map (·.kind.isReservedWord "class")) =
      some [false, false, false, false, false, true, false, false, false, false, false] := by
    decide +kernel
  obtain ⟨all, lexed, shown, -, properties⟩ := atoms_of_parse parsed
  rw [lexed, Except.toOption, Option.map_some, Option.some.injEq] at words
  have reserved : ∃ u ∈ all, u.kind.isReservedWord "class" = true :=
    List.mem_map.mp (words ▸ by decide)
  obtain ⟨u, hu, word⟩ := reserved
  have word : u.kind = .reserved "class" := by
    cases hk : u.kind <;> rw [hk] at word <;> first | cases word | exact congrArg _ (eq_of_beq word)
  exact ⟨t, all, parsed, lexed, listed ▸ shown, ⟨u, hu, word⟩, properties u hu _ word⟩

end Tree

end ScriptDebugger
