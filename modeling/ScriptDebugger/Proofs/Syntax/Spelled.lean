import ScriptDebugger.Proofs.Syntax.Operand
import ScriptDebugger.Proofs.Syntax.Spans
import ScriptDebugger.Proofs.Token.Brackets
import ScriptDebugger.Proofs.Token.Separated

/-!
# How tokens spell phrases

A derivation says which grammar functions were called. What the tokens have to do
with the phrases needs less: `Spells c (.phrase p) c'` says that the tokens from
`c` up to `c'` are those of the phrase `p`, and `Spells c (.row bs ps) c'` that
they are those of the phrases `ps` one after the other, with tokens among them
that no phrase shows, of which `bs` are brackets. The rules for a phrase differ in
where its span comes from. Every derivation spells its yield (`Derives.spells`).
-/

namespace ScriptDebugger

namespace TokenKind

/-- Names, literals and reserved words, which the nodes of a tree show. -/
def isAtom : TokenKind → Bool
  | ident _ | number _ | string _ | reserved _ => true
  | keyword .trueWord | keyword .falseWord | keyword .nullWord => true
  | _ => false

/-- The key that a token names in an object literal. -/
def keyText? : TokenKind → Option String
  | ident name | string name | reserved name => some name
  | number x => some (Number.format x)
  | _ => none

/-- Words, operators and marks that no node shows. -/
def isSilent : TokenKind → Bool
  | keyword k => !(keyword k).isAtom
  | punct p => !p.isBracket && p != .arrow
  | _ => false

end TokenKind

namespace NodeKind

variable {α : Type}

/-- Whether a node shows an atom of its own. -/
def bearsAtom : NodeKind α → Bool
  | identifier _ | literal _ | property .. => true
  | _ => false

/-- Whether the span of a node begins with that of its first child. -/
def beginsWithin : NodeKind α → Bool
  | binaryExpression .. | logicalExpression .. | assignmentExpression .. | conditionalExpression ..
  | callExpression .. | memberExpression .. => true
  | updateExpression _ before _ => !before
  | _ => false

/-- Whether the span of a node ends with that of its last child. -/
def endsWithin : NodeKind α → Bool
  | binaryExpression .. | logicalExpression .. | assignmentExpression .. | conditionalExpression ..
  | unaryExpression .. | property .. => true
  | updateExpression _ before _ => before
  | _ => false

end NodeKind

namespace Grammar

open Cursor

/-- What tokens spell: a phrase, or phrases in a row with other tokens among them, of which `bs`
are brackets. -/
inductive Piece where
  | phrase (p : Phrase)
  | row (bs : List Punct) (ps : List Phrase)

def Piece.phrases : Piece → List Phrase
  | phrase p => [p]
  | row _ ps => ps

/-- The tokens from one cursor up to another spell a piece. -/
inductive Spells : Cursor → Piece → Cursor → Prop
  | nil {c} : Spells c (.row [] []) c
  | append {c bs ps c₁ bs' qs c₂} (first : Spells c (.row bs ps) c₁)
      (rest : Spells c₁ (.row bs' qs) c₂) : Spells c (.row (bs ++ bs') (ps ++ qs)) c₂
  | single {c p c'} (phrase : Spells c (.phrase p) c') : Spells c (.row [] [p]) c'
  | silent {c} (token : c.kind.isSilent = true) : Spells c (.row [] []) c.advance
  | bracket {c b} (token : c.at? b = true) (isBracket : b.isBracket = true) :
      Spells c (.row [b] []) c.advance
  /-- A phrase in parentheses has no span of its own. -/
  | paren {c p c'} (token : c.at? .leftParen = true) (inner : Spells c.advance (.phrase p) c')
      (close : c'.at? .rightParen = true) : Spells c (.phrase p) c'.advance
  | identifier {c name} (token : c.kind = .ident name) :
      Spells c (.phrase ⟨c.span, .identifier name⟩) c.advance
  | literal {c l} (token : literal? c.kind = some l) :
      Spells c (.phrase ⟨c.span, .literal l⟩) c.advance
  | property {c k c₁ p c₂} (key : propertyKey c = .ok (k, c₁)) (colon : c₁.at? .colon = true)
      (value : Spells c₁.advance (.phrase p) c₂) :
      Spells c (.phrase ⟨c.span.merge p.span, .property k p⟩) c₂
  /-- The name after a point may be a reserved word. -/
  | access {c o c₁ n c₂} (object : Spells c (.phrase o) c₁) (dot : c₁.at? .dot = true)
      (name : propertyName c₁.advance = .ok (n, c₂)) :
      Spells c (.phrase ⟨c₂.spanFrom o.span, .memberExpression o n false⟩) c₂
  /-- From the first sub-phrase to the last one. -/
  | joined {c l c₁ ps c₂ r c₃ kind} (left : Spells c (.phrase l) c₁)
      (middle : Spells c₁ (.row [] ps) c₂) (right : Spells c₂ (.phrase r) c₃)
      (children : kind.children = l :: (ps ++ [r]))
      (begins : kind.beginsWithin = true) (ends : kind.endsWithin = true) :
      Spells c (.phrase ⟨l.span.merge r.span, kind⟩) c₃
  /-- From an operator to the end of its operand. -/
  | headed {c a c' kind} (token : c.kind.isSilent = true)
      (operand : Spells c.advance (.phrase a) c') (children : kind.children = [a])
      (ends : kind.endsWithin = true) (plain : kind.bearsAtom = false) :
      Spells c (.phrase ⟨c.span.merge a.span, kind⟩) c'
  /-- From an operand to the operator behind it. -/
  | tailed {c a c' kind} (operand : Spells c (.phrase a) c') (token : c'.kind.isSilent = true)
      (children : kind.children = [a]) (begins : kind.beginsWithin = true) :
      Spells c (.phrase ⟨a.span.merge c'.span, kind⟩) c'.advance
  /-- From the first sub-phrase to the last token. -/
  | extended {c l c₁ bs ps c₂ kind} (left : Spells c (.phrase l) c₁)
      (rest : Spells c₁ (.row bs ps) c₂) (balanced : TokenKind.Balanced (bs.map .punct))
      (children : kind.children = l :: ps) (begins : kind.beginsWithin = true) :
      Spells c (.phrase ⟨c₂.spanFrom l.span, kind⟩) c₂
  /-- From the first token to the last one. -/
  | whole {c bs ps c' kind} (parts : Spells c (.row bs ps) c') (less : c'.left < c.left)
      (balanced : TokenKind.Balanced (bs.map .punct)) (children : kind.children = ps)
      (plain : kind.bearsAtom = false) : Spells c (.phrase ⟨c'.spanFrom c.span, kind⟩) c'

/-- The phrases that are yielded, in their order. The parentheses around parameters are left to
the function. -/
def Yield.piece : Yield → Piece
  | .one p => .phrase p
  | .many ps => .row [] ps
  | .maybe o => .row [] o.toList
  | .function params body => .row [.leftParen, .rightParen] (params ++ [body])

/-- What is spelled where a goal is met. A goal that continues a phrase spells it, too; one that is
only met at a word has the word at hand. -/
def Goal.Spells (c : Cursor) (y : Yield) (c' : Cursor) : Goal → Prop
  | .operatorTail _ left | .accesses _ left =>
    ∀ start, Grammar.Spells start (.phrase left) c → Grammar.Spells start y.piece c'
  | .construction | .declaration .. | .forStatement _ =>
    c.kind.isSilent = true → Grammar.Spells c y.piece c'
  | _ => Grammar.Spells c y.piece c'

section Tokens

variable {c c' c₁ : Cursor} {bs : List Punct} {ps : List Phrase} {n p : Phrase} {b : Punct}

lemma kind_of_atKeyword? {k : Keyword} (h : c.atKeyword? k = true) : c.kind = .keyword k := by
  cases hk : c.kind with
  | keyword word =>
    rw [Cursor.atKeyword?, hk, TokenKind.isKeyword, beq_iff_eq] at h
    rw [h]
  | _ =>
    rw [Cursor.atKeyword?, hk] at h
    cases h

lemma isAtom_of_literal? {k : TokenKind} {l : Literal} (h : literal? k = some l) :
    k.isAtom = true := by
  unfold literal? at h
  split at h <;> first | rfl | cases h

lemma isAtom_of_name {k : TokenKind} {name : String} (h : k = .ident name ∨ k = .reserved name) :
    k.isAtom = true := by
  rcases h with rfl | rfl <;> rfl

lemma isSilent_of_at? (h : c.at? b = true) (silent : (TokenKind.punct b).isSilent = true) :
    c.kind.isSilent = true := by rwa [kind_of_at? h]

lemma isSilent_of_keyword {k : Keyword} (h : c.kind = .keyword k)
    (silent : (TokenKind.keyword k).isSilent = true) : c.kind.isSilent = true := by rwa [h]

lemma isSilent_of_some {α : Type} {read : TokenKind → Option α}
    (silent : ∀ k, k.isSilent = false → read k = none) {a : α} (h : read c.kind = some a) :
    c.kind.isSilent = true := by
  cases hk : c.kind.isSilent with
  | true => rfl
  | false =>
    rw [silent _ hk] at h
    cases h

lemma isSilent_of_infix? {o : Infix} (h : infix? c.kind = some o) : c.kind.isSilent = true := by
  refine isSilent_of_some (fun k hk => ?_) h
  unfold infix?
  split <;> first | rfl | cases hk

lemma isSilent_of_assignOp? {o : AssignOp} (h : assignOp? c.kind = some o) :
    c.kind.isSilent = true := by
  refine isSilent_of_some (fun k hk => ?_) h
  unfold assignOp?
  split <;> first | rfl | cases hk

lemma isSilent_of_unaryOp? {o : UnaryOp} (h : unaryOp? c.kind = some o) :
    c.kind.isSilent = true := by
  refine isSilent_of_some (fun k hk => ?_) h
  unfold unaryOp?
  split <;> first | rfl | cases hk

lemma isSilent_of_updateOp? {o : UpdateOp} (h : updateOp? c.kind = some o) :
    c.kind.isSilent = true := by
  refine isSilent_of_some (fun k hk => ?_) h
  unfold updateOp?
  split <;> first | rfl | cases hk

lemma isSilent_of_varKind? {k : VarKind} (h : varKind? c.kind = some k) :
    c.kind.isSilent = true := by
  refine isSilent_of_some (fun k hk => ?_) h
  unfold varKind?
  split <;> first | rfl | cases hk

/-- A name that is bound is at the cursor. -/
lemma exists_of_bindingIdentifier {c c' : Cursor} {n : Phrase}
    (h : bindingIdentifier c = .ok (n, c')) :
    ∃ name, c.kind = .ident name ∧ n = ⟨c.span, .identifier name⟩ ∧ c' = c.advance := by
  rw [bindingIdentifier] at h
  split at h
  case h_1 name token =>
    cases h
    exact ⟨name, token, rfl, rfl⟩
  case h_2 => cases h

/-- What a property is named after is at the cursor. -/
lemma exists_of_propertyName {c c' : Cursor} {n : Phrase} (h : propertyName c = .ok (n, c')) :
    ∃ name, (c.kind = .ident name ∨ c.kind = .reserved name) ∧
      n = ⟨c.span, .identifier name⟩ ∧ c' = c.advance := by
  rw [propertyName] at h
  split at h
  case h_1 name token =>
    cases h
    exact ⟨name, .inl token, rfl, rfl⟩
  case h_2 name token =>
    cases h
    exact ⟨name, .inr token, rfl, rfl⟩
  case h_3 => cases h

lemma keyText?_of_propertyKey {c c' : Cursor} {k : String} (h : propertyKey c = .ok (k, c')) :
    c.kind.keyText? = some k ∧ c.kind.isAtom = true ∧ c' = c.advance := by
  rw [propertyKey] at h
  split at h
  case h_5 => cases h
  all_goals
    rename_i token
    cases h
    rw [token]
    exact ⟨rfl, rfl, rfl⟩

lemma not_atEnd_of_isSilent (h : c.kind.isSilent = true) : c.atEnd = false :=
  not_atEnd_of_kind TokenKind.isSilent rfl h

lemma spanFrom_advance (more : c.atEnd = false) : c.advance.spanFrom c.span = c.span := by
  have stop : c.advance.lastStop = c.span.stop := lastStop_advance more
  rw [spanFrom, stop, Nat.max_self]

namespace Spells

variable {x : Piece}

lemma left_le (h : Spells c x c') : c'.left ≤ c.left := by
  induction h
  all_goals grind [left_advance_le, left_of_propertyName, left_of_propertyKey]

/-- A phrase, and what comes after it. -/
lemma cons (first : Spells c (.phrase p) c₁) (rest : Spells c₁ (.row bs ps) c') :
    Spells c (.row bs (p :: ps)) c' :=
  append (.single first) rest

/-- A token that no phrase shows, and what comes after it. -/
lemma skip (token : c.kind.isSilent = true) (rest : Spells c.advance (.row bs ps) c') :
    Spells c (.row bs ps) c' :=
  append (.silent token) rest

/-- A comma or another mark that no phrase shows. -/
lemma mark (token : c.at? b = true) (rest : Spells c.advance (.row bs ps) c')
    (silent : (TokenKind.punct b).isSilent = true) : Spells c (.row bs ps) c' :=
  skip (isSilent_of_at? token silent) rest

/-- Phrases between brackets. -/
lemma enclosed {b' : Punct} (token : c.at? b = true) (inner : Spells c.advance (.row [] ps) c')
    (close : c'.at? b' = true) (isBracket : b.isBracket = true) (isBracket' : b'.isBracket = true) :
    Spells c (.row [b, b'] ps) c'.advance := by
  have inside := append inner (.bracket close isBracket')
  rw [List.append_nil] at inside
  exact append (.bracket token isBracket) inside

variable {kind : NodeKind Phrase}

/-- A node that begins with a word of its own. -/
lemma worded (token : c.kind.isSilent = true) (rest : Spells c.advance (.row bs kind.children) c')
    (balanced : TokenKind.Balanced (bs.map .punct)) (plain : kind.bearsAtom = false) :
    Spells c (.phrase ⟨c'.spanFrom c.span, kind⟩) c' := by
  have := left_advance (not_atEnd_of_isSilent token)
  have := rest.left_le
  exact .whole (.skip token rest) (by omega) balanced rfl plain

/-- A node in brackets of its own. -/
lemma bracketed {b' : Punct} (token : c.at? b = true)
    (inner : Spells c.advance (.row [] kind.children) c') (close : c'.at? b' = true)
    (closes : b.closer? = some b') (plain : kind.bearsAtom = false) :
    Spells c (.phrase ⟨c'.advance.spanFrom c.span, kind⟩) c'.advance := by
  have := left_of_at? token
  have := inner.left_le
  have := left_of_at? close
  have brackets : b.isBracket = true ∧ b'.isBracket = true ∧
      TokenKind.Balanced ([b, b'].map .punct) := by
    cases b <;> cases closes <;> decide
  obtain ⟨opens, closes, balanced⟩ := brackets
  exact .whole (.enclosed token inner close opens closes) (by omega) balanced rfl plain

end Spells

lemma spells_bindingIdentifier (h : bindingIdentifier c = .ok (n, c')) :
    Spells c (.phrase n) c' := by
  obtain ⟨_, token, rfl, rfl⟩ := exists_of_bindingIdentifier h
  exact .identifier token

lemma span_of_bindingIdentifier (h : bindingIdentifier c = .ok (n, c')) : n.span = c.span := by
  obtain ⟨_, -, rfl, -⟩ := exists_of_bindingIdentifier h
  rfl

lemma spells_emptyStatement (token : c.kind = .punct .semicolon) :
    Spells c (.phrase ⟨c.span, .emptyStatement⟩) c.advance := by
  rw [← spanFrom_advance (not_atEnd_of_kind_eq token rfl)]
  exact .worded (isSilent_of_at? (at?_of_kind token) rfl) .nil rfl rfl

lemma spells_endStatement (h : endStatement c = .ok c') : Spells c (.row [] []) c' := by
  rw [endStatement] at h
  split at h
  case isTrue semicolon =>
    cases h
    exact .silent (isSilent_of_at? semicolon rfl)
  case isFalse =>
    split at h
    case isTrue =>
      cases h
      exact .nil
    case isFalse =>
      rw [refuseArrow] at h
      split at h <;> cases h

lemma Spells.ended (h : Spells c (.row [] ps) c₁) (stop : endStatement c₁ = .ok c') :
    Spells c (.row [] ps) c' := by
  rw [← List.append_nil ps]
  exact h.append (spells_endStatement stop)

lemma spells_declarator {o : Option Phrase} (name : bindingIdentifier c = .ok (n, c₁))
    (init : Spells c₁ (.row [] o.toList) c') :
    Spells c (.phrase ⟨c'.spanFrom n.span, .variableDeclarator n o⟩) c' := by
  have := left_of_bindingIdentifier name
  have := init.left_le
  rw [span_of_bindingIdentifier name]
  exact .whole ((spells_bindingIdentifier name).cons init) (by omega) rfl rfl rfl

end Tokens

/-- Every derivation spells its yield. -/
theorem Derives.spells {d : Nat} {g : Goal} {c c' : Cursor} {y : Yield} (h : Derives d g c y c') :
    g.Spells c y c' := by
  induction h with
  | assignment_none _ _ ih => exact ih
  | assignment _ op _ _ left right =>
    exact .joined left (.silent (isSilent_of_assignOp? op)) right rfl rfl rfl
  | conditional_none _ _ ih => exact ih
  | conditional _ question _ colon _ test consequent alternate =>
    have middle := Spells.mark question (consequent.cons (.mark colon .nil rfl)) rfl
    exact .joined test middle alternate rfl rfl rfl
  | operators _ _ left tail => exact tail _ left
  | operatorTail_none _ => exact fun _ left => left
  | operatorTail_weaker _ _ => exact fun _ left => left
  | @operatorTail _ _ _ _ o _ _ _ _ op _ _ _ right tail =>
    intro start left
    have middle := Spells.silent (isSilent_of_infix? op)
    refine tail start ?_
    cases o <;> exact .joined left middle right rfl rfl rfl
  | unary op _ argument => exact .headed (isSilent_of_unaryOp? op) argument rfl rfl rfl
  | unary_update _ op _ _ argument => exact .headed (isSilent_of_updateOp? op) argument rfl rfl rfl
  | unary_postfixed _ _ _ ih => exact ih
  | postfixed_none _ _ _ head chain => exact chain _ head
  | postfixed _ _ _ op _ head chain =>
    exact .tailed (chain _ head) (isSilent_of_updateOp? op) rfl rfl
  | head_construction word _ ih =>
    exact ih (isSilent_of_keyword (kind_of_atKeyword? word) rfl)
  | head_primary _ _ ih => exact ih
  | accesses_none _ _ _ => exact fun _ callee => callee
  | accesses_call call _ close _ arguments chain =>
    intro start callee
    have paren := (Bool.and_eq_true_iff.mp call).2
    exact chain start (.extended callee (.enclosed paren arguments close rfl rfl) rfl rfl rfl)
  | accesses_dot _ dot name _ chain =>
    intro start callee
    exact chain start (.access callee dot name)
  | accesses_bracket _ _ bracket _ close _ key chain =>
    intro start callee
    have rest := Spells.enclosed bracket (.single key) close rfl rfl
    exact chain start (.extended callee rest rfl rfl rfl)
  | construction_none _ _ _ head chain =>
    exact fun word => .worded word (.single (chain _ head)) rfl rfl
  | construction _ _ paren _ close head chain arguments =>
    intro word
    exact .worded word ((chain _ head).cons (.enclosed paren arguments close rfl rfl)) rfl rfl
  | elements_nil _ => exact .nil
  | elements_last _ _ _ first => exact .single first
  | elements_cons _ _ comma _ first rest => exact first.cons (.mark comma rest rfl)
  | properties_nil _ => exact .nil
  | properties_last _ key colon _ _ value => exact .single (.property key colon value)
  | properties_cons _ key colon _ comma _ value rest =>
    exact Spells.cons (.property key colon value) (.mark comma rest rfl)
  | primary_literal token => exact .literal token
  | primary_identifier token _ => exact .identifier token
  | primary_paren token _ close _ inner => exact .paren (at?_of_kind token) inner close
  | primary_array token _ close items => exact .bracketed (at?_of_kind token) items close rfl rfl
  | primary_object token _ close items => exact .bracketed (at?_of_kind token) items close rfl rfl
  | primary_function token _ _ rest =>
    exact .worded (isSilent_of_keyword token rfl) rest rfl rfl
  | primary_namedFunction token named _ rest =>
    have name := Spells.identifier named
    exact .worded (isSilent_of_keyword token rfl) (name.cons rest) rfl rfl
  | parameters_nil _ => exact .nil
  | parameters_last _ first _ => exact .single (spells_bindingIdentifier first)
  | parameters_cons _ first comma _ rest =>
    exact (spells_bindingIdentifier first).cons (.mark comma rest rfl)
  | functionRest paren _ close _ params body =>
    exact .append (.enclosed paren params close rfl rfl) (.single body)
  | block brace body ih => exact .bracketed brace ih (body.at_rightBrace ⟨_, rfl⟩) rfl rfl
  | blockBody_nil _ => exact .nil
  | blockBody_cons _ _ _ _ first rest => exact first.cons rest
  | initializer_none _ => exact .nil
  | initializer assign _ value => exact .mark assign (.single value) rfl
  | declarators_last name _ _ ih => exact .single (spells_declarator name ih)
  | declarators_cons name _ comma _ ih rest =>
    exact (spells_declarator name ih).cons (.mark comma rest rfl)
  | @declaration _ _ terminated _ _ _ _ _ stop names =>
    intro word
    cases terminated with
    | true => exact .worded word (names.ended stop) rfl rfl
    | false =>
      cases stop
      exact .worded word names rfl rfl
  | parenthesized paren _ close inner => exact .paren paren inner close
  | optional_none _ => exact .nil
  | optional _ _ inner => exact .single inner
  | forInit_declaration word _ rest => exact .single (rest (isSilent_of_varKind? word))
  | forInit _ _ rest => exact rest
  | forStatement paren _ _ first _ second _ close _ init test update body =>
    intro word
    have head := Spells.append init (.mark first (test.append (.mark second update rfl)) rfl)
    have enclosed := Spells.enclosed paren head close rfl rfl
    rw [← List.append_assoc] at enclosed
    exact .worded word (enclosed.append (.single body)) rfl rfl
  | result_none _ => exact .nil
  | result _ _ rest => exact rest
  | statement_block _ _ rest => exact rest
  | statement_declaration token _ rest => exact rest (isSilent_of_varKind? token)
  | statement_function token name _ rest =>
    have name := spells_bindingIdentifier name
    exact .worded (isSilent_of_keyword token rfl) (name.cons rest) rfl rfl
  | statement_if token _ _ _ test consequent =>
    exact .worded (isSilent_of_keyword token rfl) (test.cons (.single consequent)) rfl rfl
  | statement_ifElse token _ _ else_ _ test consequent alternate =>
    have silent := isSilent_of_keyword (kind_of_atKeyword? else_) rfl
    have rest := Spells.skip silent (.single alternate)
    exact .worded (isSilent_of_keyword token rfl) (test.cons (consequent.cons rest)) rfl rfl
  | statement_for token _ rest => exact rest (isSilent_of_keyword token rfl)
  | statement_while token _ _ test body =>
    exact .worded (isSilent_of_keyword token rfl) (test.cons (.single body)) rfl rfl
  | statement_return token _ _ stop argument =>
    exact .worded (isSilent_of_keyword token rfl) (argument.ended stop) rfl rfl
  | statement_throw token _ _ stop argument =>
    exact .worded (isSilent_of_keyword token rfl) ((Spells.single argument).ended stop) rfl rfl
  | statement_break token _ stop =>
    exact .worded (isSilent_of_keyword token rfl) (spells_endStatement stop) rfl rfl
  | statement_continue token _ stop =>
    exact .worded (isSilent_of_keyword token rfl) (spells_endStatement stop) rfl rfl
  | statement_debugger token stop =>
    exact .worded (isSilent_of_keyword token rfl) (spells_endStatement stop) rfl rfl
  | statement_empty token => exact spells_emptyStatement token
  | statement_expression _ expression stop ih =>
    have := expression.left_lt rfl
    have := left_of_endStatement stop
    exact .whole ((Spells.single ih).ended stop) (by omega) rfl rfl rfl
  | programBody_nil _ => exact .nil
  | programBody_cons _ _ _ first rest => exact first.cons rest

end Grammar

namespace Cursor

/-- The tokens `us` are consumed from one cursor up to another. -/
structure Consumes (c : Cursor) (us : List Token) (c' : Cursor) : Prop where
  tokens : c.tokens = us ++ c'.tokens
  lastStop : c'.lastStop = Token.stopAfter c.lastStop us
  inside : ∀ u ∈ us, u.kind.isEndOfInput = false

variable {c c₁ c' : Cursor} {us vs : List Token}

namespace Consumes

lemma nil : c.Consumes [] c := ⟨rfl, rfl, List.forall_mem_nil _⟩

lemma append (h : c.Consumes us c₁) (h' : c₁.Consumes vs c') : c.Consumes (us ++ vs) c' where
  tokens := by rw [h.tokens, h'.tokens, List.append_assoc]
  lastStop := by
    rw [h'.lastStop, h.lastStop, Token.stopAfter, Token.stopAfter, Token.stopAfter,
      List.getLast?_append]
    cases vs.getLast? <;> rfl
  inside := List.forall_mem_append.mpr ⟨h.inside, h'.inside⟩

lemma token (more : c.atEnd = false) : c.Consumes [c.current] c.advance where
  tokens := by
    cases hc : c.tokens with
    | nil =>
      rw [atEnd, kind, current, hc] at more
      cases more
    | cons t ts =>
      have inside : t.kind.isEndOfInput = false := by rwa [atEnd, kind_of_tokens hc] at more
      rw [advance_of_tokens hc inside, current, hc, List.singleton_append]
  lastStop := lastStop_advance more
  inside := List.forall_mem_singleton.mpr more

end Consumes

end Cursor

/-- At the end of input no other token is left. -/
lemma Cursor.Along.rest {all : List Token} {c : Cursor} (h : c.Along all) (ends : c.atEnd = true) :
    ∀ u ∈ c.tokens, u.kind = .endOfInput := by
  have kind := Grammar.kind_of_atEnd ends
  have ordered := h.ordered
  rw [Cursor.kind, Cursor.current] at kind
  generalize c.tokens = ts at kind ordered
  cases ordered with
  | last => exact List.forall_mem_singleton.mpr kind
  | token more =>
    dsimp only at kind
    rw [kind] at more
    cases more

namespace Tree

lemma placed_link {t : Tree} (root : NodeId) {p : Phrase} {id : NodeId}
    (h : Phrase.Placed t.nodes p id) : Phrase.Placed (t.link root).nodes p id := by
  induction p using Phrase.induct generalizing id with
  | h p ih =>
    obtain ⟨get, kind, span, children⟩ := h
    have linked := getElem?_link t root id
    rw [get, Option.map_some] at linked
    refine .mk linked kind span ?_
    exact forall₂_imp_mem children fun c hc _ _ placed => ih c hc placed

/-- The node of a phrase, with those of its sub-phrases. -/
lemma exists_children_of_placed {t : Tree} {p : Phrase} {id : NodeId}
    (h : Phrase.Placed t.nodes p id) :
    ∃ ids, t.kind id = p.kind.fill ids ∧ t.children id = ids ∧ t.span id = p.span ∧ id < t.size ∧
      List.Forall₂ (Phrase.Placed t.nodes) p.children ids := by
  obtain ⟨get, filled, span, children⟩ := h
  have kind := (kind_of_getElem? get).trans filled
  refine ⟨_, kind, ?_, ?_, (Array.getElem?_eq_some_iff.mp get).1, children⟩
  · rw [Tree.children, kind, NodeKind.children_fill children.length_eq.symm]
  · rw [Tree.span, get, Option.map_some, Option.getD_some, span]

/-- The node of a whole program is the last one and the root. -/
lemma placed_ofPhrase (table? : Option LineTable) (sourceType : SourceType) (p : Phrase) :
    ∃ n, (ofPhrase table? sourceType p).size = n + 1 ∧
      (ofPhrase table? sourceType p).root = some n ∧
      Phrase.Placed (ofPhrase table? sourceType p).nodes p n := by
  let locate (s : Span) : Option SourceLocation := table?.map (·.location s)
  obtain ⟨n, hn⟩ := size_numbered locate sourceType p
  have last : (p.number locate #[]).size - 1 = n := congrArg (· - 1) hn
  have linked : ofPhrase table? sourceType p = (numbered locate sourceType p).link n := by
    rw [← last]
    rfl
  rw [linked]
  exact ⟨n, (size_link _ _).trans hn, rfl, placed_link _ (placed_last hn)⟩

/-- The tree of a program whose tokens are spelled up to the end of input. -/
structure Spelled (text : String) (t : Tree) (all : List Token) (body : List Phrase)
    (c : Cursor) : Prop where
  lexed : Token.ofText text = .ok all
  derived : ∃ d, Grammar.Derives d .programBody (.start all) (.many body) c
  spells : Grammar.Spells (.start all) (.row [] body) c
  rest : ∀ u ∈ c.tokens, u.kind = .endOfInput
  row : Phrase.Row all 0 body text.utf8ByteSize
  wellFormed : t.WellFormed
  root : Phrase.Placed t.nodes ⟨⟨0, text.utf8ByteSize⟩, .program body⟩ (t.size - 1)
  inner : ∀ id < t.size - 1, ∃ p ∈ body, ∃ q, Phrase.Within q p ∧ Phrase.Placed t.nodes q id

theorem spelled_of_parse {text : String} {options : ParseOptions} {t : Tree}
    (h : Tree.parse text options = .ok t) : ∃ all body c, t.Spelled text all body c := by
  have wellFormed := wellFormed_of_parse h
  obtain ⟨p, hp, rfl⟩ := Tree.parse_eq_ok.mp h
  generalize (if options.locations then some (LineTable.ofText text) else none) = table?
    at wellFormed ⊢
  unfold Phrase.parse at hp
  split at hp
  · cases hp
  rename_i all lexed
  obtain ⟨body, c, derived, rfl⟩ := Grammar.program_eq_ok.mp hp
  have read := Grammar.programBody_meets (Grammar.depthFor all.length)
    (Cursor.along_start (Token.ordered_ofText lexed))
  have run : Grammar.programBody (Grammar.depthFor all.length) (.start all) = .ok (body, c) := by
    simpa [Grammar.Goal.run, Grammar.yields_eq_ok] using Grammar.run_of_derives derived
  rw [run] at read
  have inText : c.lastStop ≤ text.utf8ByteSize := by
    rcases read.along.lastStop with zero | ⟨last, mem, -, stop⟩
    · have : c.lastStop = 0 := zero
      omega
    · exact stop ▸ (Token.liesIn_ofText lexed mem).stop_le
  let locate (s : Span) : Option SourceLocation := table?.map (·.location s)
  let program : Phrase := ⟨⟨0, text.utf8ByteSize⟩, .program body⟩
  obtain ⟨n, size, -, root⟩ := placed_ofPhrase table? options.sourceType program
  have last : (Tree.ofPhrase table? options.sourceType program).size - 1 = n := by rw [size]; rfl
  refine ⟨all, body, c, ?_⟩
  exact {
    lexed
    derived := ⟨_, derived⟩
    spells := derived.spells
    rest := read.along.rest (derived.atEnd rfl)
    row := read.row.mono (Nat.le_refl 0) inText
    wellFormed
    root := last ▸ root
    inner := by
      intro id hid
      rw [last] at hid
      have numbered : (program.number locate #[]).size = n + 1 := (size_link _ _).symm.trans size
      obtain ⟨q, hq, r, within, placed⟩ :=
        Phrase.covered_inner locate program #[] (Nat.zero_le id) (numbered ▸ Nat.succ_lt_succ hid)
      exact ⟨q, hq, r, within, placed_link _ placed⟩ }

end Tree

end ScriptDebugger
