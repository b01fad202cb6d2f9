import Mathlib.Tactic.Lemma
import ScriptDebugger.Proofs.Syntax.PhraseGrammar

/-!
# Derivations

The grammar functions as one relation: `Derives d g c y c'` says that goal `g`
is met at cursor `c` within depth `d`, with yield `y`, and leaves the cursor at
`c'`. What all successful parses have in common is proved by one induction on
it.
-/

namespace ScriptDebugger.Grammar

/-- What is to be parsed, one goal for each grammar function. -/
inductive Goal where
  | assignment
  | conditional
  | operators (level : Nat)
  | operatorTail (level : Nat) (left : Phrase)
  | unary
  | postfixed
  /-- What a chain of accesses begins with. -/
  | head
  | accesses (calls : Bool) (callee : Phrase)
  | construction
  | elements (closer : Punct)
  | properties
  | primary
  | parameters
  | functionRest
  | block (ctx : Context)
  | blockBody (ctx : Context)
  | declarators
  /-- The value of a declarator. -/
  | initializer
  | declaration (kind : VarKind) (terminated : Bool)
  | parenthesized
  | optional (closer : Punct)
  | forInit
  | forStatement (ctx : Context)
  /-- What a `return` gives back. -/
  | result
  | statement (ctx : Context)
  | programBody

/-- What parsing gives. -/
inductive Yield where
  | one (p : Phrase)
  | many (ps : List Phrase)
  | maybe (o : Option Phrase)
  | function (params : List Phrase) (body : Phrase)

/-- The literal that a token stands for. -/
def literal? : TokenKind → Option Literal
  | .number x => some (.number x)
  | .string s => some (.string s)
  | .keyword .trueWord => some (.bool true)
  | .keyword .falseWord => some (.bool false)
  | .keyword .nullWord => some .null
  | _ => none

/-- The kind of a declaration that begins with a token. -/
def varKind? : TokenKind → Option VarKind
  | .keyword .varWord => some .varKind
  | .keyword .letWord => some .letKind
  | .keyword .constWord => some .constKind
  | _ => none

/-- Whether a statement that begins with a token is an expression. -/
def beginsExpression : TokenKind → Bool
  | .punct .leftBrace | .punct .semicolon | .reserved _ => false
  | .keyword k =>
    match k with
    | .varWord | .letWord | .constWord | .functionWord | .ifWord | .forWord | .whileWord
    | .returnWord | .throwWord | .breakWord | .continueWord | .debuggerWord => false
    | _ => true
  | _ => true

inductive Derives : Nat → Goal → Cursor → Yield → Cursor → Prop
  /- Expressions. -/
  | assignment_none {d c p c'} (left : Derives d .conditional c (.one p) c')
      (op : assignOp? c'.kind = none) : Derives (d + 1) .assignment c (.one p) c'
  | assignment {d c l c₁ o r c₂} (left : Derives d .conditional c (.one l) c₁)
      (op : assignOp? c₁.kind = some o) (target : checkTarget l = .ok ())
      (right : Derives d .assignment c₁.advance (.one r) c₂) :
      Derives (d + 1) .assignment c
        (.one ⟨l.span.merge r.span, .assignmentExpression o l r⟩) c₂
  | conditional_none {d c p c'} (test : Derives d (.operators 1) c (.one p) c')
      (question : c'.at? .question = false) : Derives (d + 1) .conditional c (.one p) c'
  | conditional {d c t c₁ a c₂ b c₃} (test : Derives d (.operators 1) c (.one t) c₁)
      (question : c₁.at? .question = true)
      (consequent : Derives d .assignment c₁.advance (.one a) c₂)
      (colon : c₂.at? .colon = true)
      (alternate : Derives d .assignment c₂.advance (.one b) c₃) :
      Derives (d + 1) .conditional c
        (.one ⟨t.span.merge b.span, .conditionalExpression t a b⟩) c₃
  | operators {d n c l c₁ y c₂} (left : Derives d .unary c (.one l) c₁)
      (tail : Derives d (.operatorTail n l) c₁ y c₂) : Derives (d + 1) (.operators n) c y c₂
  | operatorTail_none {d n l c} (op : infix? c.kind = none) :
      Derives (d + 1) (.operatorTail n l) c (.one l) c
  | operatorTail_weaker {d n l c o} (op : infix? c.kind = some o) (weaker : o.level < n) :
      Derives (d + 1) (.operatorTail n l) c (.one l) c
  | operatorTail {d n l c o r c₁ y c₂} (op : infix? c.kind = some o) (binds : ¬ o.level < n)
      (right : Derives d (.operators (o.level + 1)) c.advance (.one r) c₁)
      (tail : Derives d (.operatorTail n (o.node l r)) c₁ y c₂) :
      Derives (d + 1) (.operatorTail n l) c y c₂
  | unary {d c o a c'} (op : unaryOp? c.kind = some o)
      (argument : Derives d .unary c.advance (.one a) c') :
      Derives (d + 1) .unary c (.one ⟨c.span.merge a.span, .unaryExpression o a⟩) c'
  | unary_update {d c o a c'} (notUnary : unaryOp? c.kind = none) (op : updateOp? c.kind = some o)
      (argument : Derives d .unary c.advance (.one a) c') (target : checkTarget a = .ok ()) :
      Derives (d + 1) .unary c (.one ⟨c.span.merge a.span, .updateExpression o true a⟩) c'
  | unary_postfixed {d c y c'} (notUnary : unaryOp? c.kind = none)
      (notUpdate : updateOp? c.kind = none)
      (rest : Derives d .postfixed c y c') : Derives (d + 1) .unary c y c'
  | postfixed_none {d c f c₁ a c₂} (head : Derives d .head c (.one f) c₁)
      (chain : Derives d (.accesses true f) c₁ (.one a) c₂)
      (alone : c₂.newlineBefore = true ∨ updateOp? c₂.kind = none) :
      Derives (d + 1) .postfixed c (.one a) c₂
  | postfixed {d c f c₁ a c₂ o} (head : Derives d .head c (.one f) c₁)
      (chain : Derives d (.accesses true f) c₁ (.one a) c₂) (sameLine : c₂.newlineBefore = false)
      (op : updateOp? c₂.kind = some o) (target : checkTarget a = .ok ()) :
      Derives (d + 1) .postfixed c (.one ⟨a.span.merge c₂.span, .updateExpression o false a⟩)
        c₂.advance
  | head_construction {d c y c'} (word : c.atKeyword? .newWord = true)
      (rest : Derives d .construction c y c') : Derives d .head c y c'
  | head_primary {d c y c'} (word : c.atKeyword? .newWord = false)
      (rest : Derives d .primary c y c') : Derives d .head c y c'
  | accesses_none {d calls f c} (call : (calls && c.at? .leftParen) = false)
      (dot : c.at? .dot = false) (bracket : c.at? .leftBracket = false) :
      Derives (d + 1) (.accesses calls f) c (.one f) c
  | accesses_call {d calls f c as c₁ y c₂} (call : (calls && c.at? .leftParen) = true)
      (arguments : Derives d (.elements .rightParen) c.advance (.many as) c₁)
      (close : c₁.at? .rightParen = true)
      (chain : Derives d
        (.accesses calls ⟨c₁.advance.spanFrom f.span, .callExpression f as⟩) c₁.advance y c₂) :
      Derives (d + 1) (.accesses calls f) c y c₂
  | accesses_dot {d calls f c n c₁ y c₂} (call : (calls && c.at? .leftParen) = false)
      (dot : c.at? .dot = true) (name : propertyName c.advance = .ok (n, c₁))
      (chain : Derives d
        (.accesses calls ⟨c₁.spanFrom f.span, .memberExpression f n false⟩) c₁ y c₂) :
      Derives (d + 1) (.accesses calls f) c y c₂
  | accesses_bracket {d calls f c k c₁ y c₂} (call : (calls && c.at? .leftParen) = false)
      (dot : c.at? .dot = false) (bracket : c.at? .leftBracket = true)
      (key : Derives d .assignment c.advance (.one k) c₁) (close : c₁.at? .rightBracket = true)
      (chain : Derives d
        (.accesses calls ⟨c₁.advance.spanFrom f.span, .memberExpression f k true⟩)
        c₁.advance y c₂) :
      Derives (d + 1) (.accesses calls f) c y c₂
  | construction_none {d c f c₁ g c₂} (head : Derives d .head c.advance (.one f) c₁)
      (chain : Derives d (.accesses false f) c₁ (.one g) c₂) (paren : c₂.at? .leftParen = false) :
      Derives (d + 1) .construction c (.one ⟨c₂.spanFrom c.span, .newExpression g []⟩) c₂
  | construction {d c f c₁ g c₂ as c₃} (head : Derives d .head c.advance (.one f) c₁)
      (chain : Derives d (.accesses false f) c₁ (.one g) c₂) (paren : c₂.at? .leftParen = true)
      (arguments : Derives d (.elements .rightParen) c₂.advance (.many as) c₃)
      (close : c₃.at? .rightParen = true) :
      Derives (d + 1) .construction c
        (.one ⟨c₃.advance.spanFrom c.span, .newExpression g as⟩) c₃.advance
  | elements_nil {d closer c} (close : c.at? closer = true) :
      Derives (d + 1) (.elements closer) c (.many []) c
  | elements_last {d closer c p c'} (close : c.at? closer = false)
      (first : Derives d .assignment c (.one p) c') (comma : c'.at? .comma = false) :
      Derives (d + 1) (.elements closer) c (.many [p]) c'
  | elements_cons {d closer c p c₁ ps c₂} (close : c.at? closer = false)
      (first : Derives d .assignment c (.one p) c₁) (comma : c₁.at? .comma = true)
      (rest : Derives d (.elements closer) c₁.advance (.many ps) c₂) :
      Derives (d + 1) (.elements closer) c (.many (p :: ps)) c₂
  | properties_nil {d c} (close : c.at? .rightBrace = true) :
      Derives (d + 1) .properties c (.many []) c
  | properties_last {d c k c₁ p c₂} (close : c.at? .rightBrace = false)
      (key : propertyKey c = .ok (k, c₁)) (colon : c₁.at? .colon = true)
      (value : Derives d .assignment c₁.advance (.one p) c₂) (comma : c₂.at? .comma = false) :
      Derives (d + 1) .properties c (.many [⟨c.span.merge p.span, .property k p⟩]) c₂
  | properties_cons {d c k c₁ p c₂ ps c₃} (close : c.at? .rightBrace = false)
      (key : propertyKey c = .ok (k, c₁)) (colon : c₁.at? .colon = true)
      (value : Derives d .assignment c₁.advance (.one p) c₂) (comma : c₂.at? .comma = true)
      (rest : Derives d .properties c₂.advance (.many ps) c₃) :
      Derives (d + 1) .properties c (.many (⟨c.span.merge p.span, .property k p⟩ :: ps)) c₃
  | primary_literal {d c l} (token : literal? c.kind = some l) :
      Derives (d + 1) .primary c (.one ⟨c.span, .literal l⟩) c.advance
  | primary_identifier {d c name} (token : c.kind = .ident name)
      (noArrow : c.advance.at? .arrow = false) :
      Derives (d + 1) .primary c (.one ⟨c.span, .identifier name⟩) c.advance
  | primary_paren {d c p c'} (token : c.kind = .punct .leftParen)
      (inner : Derives d .assignment c.advance (.one p) c') (close : c'.at? .rightParen = true)
      (noArrow : c'.advance.at? .arrow = false) : Derives (d + 1) .primary c (.one p) c'.advance
  | primary_array {d c ps c'} (token : c.kind = .punct .leftBracket)
      (items : Derives d (.elements .rightBracket) c.advance (.many ps) c')
      (close : c'.at? .rightBracket = true) :
      Derives (d + 1) .primary c (.one ⟨c'.advance.spanFrom c.span, .arrayExpression ps⟩)
        c'.advance
  | primary_object {d c ps c'} (token : c.kind = .punct .leftBrace)
      (items : Derives d .properties c.advance (.many ps) c')
      (close : c'.at? .rightBrace = true) :
      Derives (d + 1) .primary c (.one ⟨c'.advance.spanFrom c.span, .objectExpression ps⟩)
        c'.advance
  | primary_function {d c ps b c'} (token : c.kind = .keyword .functionWord)
      (anonymous : ∀ name, c.advance.kind ≠ .ident name)
      (rest : Derives d .functionRest c.advance (.function ps b) c') :
      Derives (d + 1) .primary c (.one ⟨c'.spanFrom c.span, .functionExpression none ps b⟩) c'
  | primary_namedFunction {d c name ps b c'} (token : c.kind = .keyword .functionWord)
      (named : c.advance.kind = .ident name)
      (rest : Derives d .functionRest c.advance.advance (.function ps b) c') :
      Derives (d + 1) .primary c
        (.one ⟨c'.spanFrom c.span,
          .functionExpression (some ⟨c.advance.span, .identifier name⟩) ps b⟩) c'
  /- Functions. -/
  | parameters_nil {d c} (close : c.at? .rightParen = true) :
      Derives (d + 1) .parameters c (.many []) c
  | parameters_last {d c p c'} (close : c.at? .rightParen = false)
      (first : bindingIdentifier c = .ok (p, c')) (comma : c'.at? .comma = false) :
      Derives (d + 1) .parameters c (.many [p]) c'
  | parameters_cons {d c p c₁ ps c₂} (close : c.at? .rightParen = false)
      (first : bindingIdentifier c = .ok (p, c₁)) (comma : c₁.at? .comma = true)
      (rest : Derives d .parameters c₁.advance (.many ps) c₂) :
      Derives (d + 1) .parameters c (.many (p :: ps)) c₂
  | functionRest {d c ps c₁ b c₂} (paren : c.at? .leftParen = true)
      (params : Derives d .parameters c.advance (.many ps) c₁)
      (close : c₁.at? .rightParen = true)
      (body : Derives d (.block ⟨true, false⟩) c₁.advance (.one b) c₂) :
      Derives (d + 1) .functionRest c (.function ps b) c₂
  /- Statements. -/
  | block {d ctx c ps c'} (brace : c.at? .leftBrace = true)
      (body : Derives d (.blockBody ctx) c.advance (.many ps) c') :
      Derives (d + 1) (.block ctx) c (.one ⟨c'.advance.spanFrom c.span, .blockStatement ps⟩)
        c'.advance
  | blockBody_nil {d ctx c} (close : c.at? .rightBrace = true) :
      Derives (d + 1) (.blockBody ctx) c (.many []) c
  | blockBody_cons {d ctx c p c₁ ps c₂} (close : c.at? .rightBrace = false)
      (more : c.atEnd = false) (first : Derives d (.statement ctx) c (.one p) c₁)
      (rest : Derives d (.blockBody ctx) c₁ (.many ps) c₂) :
      Derives (d + 1) (.blockBody ctx) c (.many (p :: ps)) c₂
  | initializer_none {d c} (assign : c.at? .assign = false) :
      Derives d .initializer c (.maybe none) c
  | initializer {d c p c'} (assign : c.at? .assign = true)
      (value : Derives d .assignment c.advance (.one p) c') :
      Derives d .initializer c (.maybe (some p)) c'
  | declarators_last {d c n c₁ o c₂} (name : bindingIdentifier c = .ok (n, c₁))
      (init : Derives d .initializer c₁ (.maybe o) c₂) (comma : c₂.at? .comma = false) :
      Derives (d + 1) .declarators c (.many [⟨c₂.spanFrom n.span, .variableDeclarator n o⟩]) c₂
  | declarators_cons {d c n c₁ o c₂ ps c₃} (name : bindingIdentifier c = .ok (n, c₁))
      (init : Derives d .initializer c₁ (.maybe o) c₂) (comma : c₂.at? .comma = true)
      (rest : Derives d .declarators c₂.advance (.many ps) c₃) :
      Derives (d + 1) .declarators c
        (.many (⟨c₂.spanFrom n.span, .variableDeclarator n o⟩ :: ps)) c₃
  | declaration {d kind terminated c ps c₁ c₂}
      (names : Derives d .declarators c.advance (.many ps) c₁)
      (stop : (if terminated then endStatement c₁ else .ok c₁) = .ok c₂) :
      Derives (d + 1) (.declaration kind terminated) c
        (.one ⟨c₂.spanFrom c.span, .variableDeclaration kind ps⟩) c₂
  | parenthesized {d c p c'} (paren : c.at? .leftParen = true)
      (inner : Derives d .assignment c.advance (.one p) c') (close : c'.at? .rightParen = true) :
      Derives (d + 1) .parenthesized c (.one p) c'.advance
  | optional_none {d closer c} (close : c.at? closer = true) :
      Derives (d + 1) (.optional closer) c (.maybe none) c
  | optional {d closer c p c'} (close : c.at? closer = false)
      (inner : Derives d .assignment c (.one p) c') :
      Derives (d + 1) (.optional closer) c (.maybe (some p)) c'
  | forInit_declaration {d c kind p c'} (word : varKind? c.kind = some kind)
      (rest : Derives d (.declaration kind false) c (.one p) c') :
      Derives (d + 1) .forInit c (.maybe (some p)) c'
  | forInit {d c y c'} (word : varKind? c.kind = none)
      (rest : Derives d (.optional .semicolon) c y c') : Derives (d + 1) .forInit c y c'
  | forStatement {d ctx c i c₁ t c₂ u c₃ b c₄} (paren : c.advance.at? .leftParen = true)
      (init : Derives d .forInit c.advance.advance (.maybe i) c₁)
      (noIteration : (c₁.kind.isReservedWord "of" || c₁.kind.isReservedWord "in") = false)
      (first : c₁.at? .semicolon = true)
      (test : Derives d (.optional .semicolon) c₁.advance (.maybe t) c₂)
      (second : c₂.at? .semicolon = true)
      (update : Derives d (.optional .rightParen) c₂.advance (.maybe u) c₃)
      (close : c₃.at? .rightParen = true)
      (body : Derives d (.statement { ctx with inLoop := true }) c₃.advance (.one b) c₄) :
      Derives (d + 1) (.forStatement ctx) c
        (.one ⟨c₄.spanFrom c.span, .forStatement i t u b⟩) c₄
  | result_none {d c} (ends : mayEnd c = true) : Derives d .result c (.maybe none) c
  | result {d c y c'} (ends : mayEnd c = false)
      (rest : Derives d (.optional .semicolon) c y c') : Derives d .result c y c'
  | statement_block {d ctx c y c'} (token : c.kind = .punct .leftBrace)
      (rest : Derives d (.block ctx) c y c') : Derives (d + 1) (.statement ctx) c y c'
  | statement_declaration {d ctx c kind y c'} (token : varKind? c.kind = some kind)
      (rest : Derives d (.declaration kind true) c y c') : Derives (d + 1) (.statement ctx) c y c'
  | statement_function {d ctx c n c₁ ps b c₂} (token : c.kind = .keyword .functionWord)
      (name : bindingIdentifier c.advance = .ok (n, c₁))
      (rest : Derives d .functionRest c₁ (.function ps b) c₂) :
      Derives (d + 1) (.statement ctx) c
        (.one ⟨c₂.spanFrom c.span, .functionDeclaration n ps b⟩) c₂
  | statement_if {d ctx c t c₁ s c₂} (token : c.kind = .keyword .ifWord)
      (test : Derives d .parenthesized c.advance (.one t) c₁)
      (consequent : Derives d (.statement ctx) c₁ (.one s) c₂)
      (noElse : c₂.atKeyword? .elseWord = false) :
      Derives (d + 1) (.statement ctx) c (.one ⟨c₂.spanFrom c.span, .ifStatement t s none⟩) c₂
  | statement_ifElse {d ctx c t c₁ s c₂ a c₃} (token : c.kind = .keyword .ifWord)
      (test : Derives d .parenthesized c.advance (.one t) c₁)
      (consequent : Derives d (.statement ctx) c₁ (.one s) c₂)
      (else_ : c₂.atKeyword? .elseWord = true)
      (alternate : Derives d (.statement ctx) c₂.advance (.one a) c₃) :
      Derives (d + 1) (.statement ctx) c
        (.one ⟨c₃.spanFrom c.span, .ifStatement t s (some a)⟩) c₃
  | statement_for {d ctx c y c'} (token : c.kind = .keyword .forWord)
      (rest : Derives d (.forStatement ctx) c y c') : Derives (d + 1) (.statement ctx) c y c'
  | statement_while {d ctx c t c₁ b c₂} (token : c.kind = .keyword .whileWord)
      (test : Derives d .parenthesized c.advance (.one t) c₁)
      (body : Derives d (.statement { ctx with inLoop := true }) c₁ (.one b) c₂) :
      Derives (d + 1) (.statement ctx) c (.one ⟨c₂.spanFrom c.span, .whileStatement t b⟩) c₂
  | statement_return {d ctx c o c₁ c₂} (token : c.kind = .keyword .returnWord)
      (legal : ctx.inFunction = true) (argument : Derives d .result c.advance (.maybe o) c₁)
      (stop : endStatement c₁ = .ok c₂) :
      Derives (d + 1) (.statement ctx) c (.one ⟨c₂.spanFrom c.span, .returnStatement o⟩) c₂
  | statement_throw {d ctx c p c₁ c₂} (token : c.kind = .keyword .throwWord)
      (sameLine : c.advance.newlineBefore = false)
      (argument : Derives d .assignment c.advance (.one p) c₁) (stop : endStatement c₁ = .ok c₂) :
      Derives (d + 1) (.statement ctx) c (.one ⟨c₂.spanFrom c.span, .throwStatement p⟩) c₂
  | statement_break {d ctx c c'} (token : c.kind = .keyword .breakWord)
      (legal : ctx.inLoop = true) (stop : endStatement c.advance = .ok c') :
      Derives (d + 1) (.statement ctx) c (.one ⟨c'.spanFrom c.span, .breakStatement⟩) c'
  | statement_continue {d ctx c c'} (token : c.kind = .keyword .continueWord)
      (legal : ctx.inLoop = true) (stop : endStatement c.advance = .ok c') :
      Derives (d + 1) (.statement ctx) c (.one ⟨c'.spanFrom c.span, .continueStatement⟩) c'
  | statement_debugger {d ctx c c'} (token : c.kind = .keyword .debuggerWord)
      (stop : endStatement c.advance = .ok c') :
      Derives (d + 1) (.statement ctx) c (.one ⟨c'.spanFrom c.span, .debuggerStatement⟩) c'
  | statement_empty {d ctx c} (token : c.kind = .punct .semicolon) :
      Derives (d + 1) (.statement ctx) c (.one ⟨c.span, .emptyStatement⟩) c.advance
  | statement_expression {d ctx c p c₁ c₂} (token : beginsExpression c.kind = true)
      (expression : Derives d .assignment c (.one p) c₁) (stop : endStatement c₁ = .ok c₂) :
      Derives (d + 1) (.statement ctx) c (.one ⟨c₂.spanFrom c.span, .expressionStatement p⟩) c₂
  | programBody_nil {d c} (atEnd : c.atEnd = true) :
      Derives (d + 1) .programBody c (.many []) c
  | programBody_cons {d c p c₁ ps c₂} (more : c.atEnd = false)
      (first : Derives d (.statement ⟨false, false⟩) c (.one p) c₁)
      (rest : Derives d .programBody c₁ (.many ps) c₂) :
      Derives (d + 1) .programBody c (.many (p :: ps)) c₂

/-- A result with a yield of some form. -/
def yields {α : Type} (form : α → Yield) (r : Result (α × Cursor)) : Result (Yield × Cursor) :=
  r.map fun x => (form x.1, x.2)

/-- What the function of a goal gives within a depth. -/
def Goal.run (d : Nat) (c : Cursor) : Goal → Result (Yield × Cursor)
  | .assignment => yields .one (Grammar.assignment d c)
  | .conditional => yields .one (Grammar.conditional d c)
  | .operators level => yields .one (Grammar.operators d level c)
  | .operatorTail level left => yields .one (Grammar.operatorTail d level left c)
  | .unary => yields .one (Grammar.unary d c)
  | .postfixed => yields .one (Grammar.postfixed d c)
  | .head =>
    yields .one (if c.atKeyword? .newWord then Grammar.construction d c else Grammar.primary d c)
  | .accesses calls callee => yields .one (Grammar.accesses d calls callee c)
  | .construction => yields .one (Grammar.construction d c)
  | .elements closer => yields .many (Grammar.elements d closer c)
  | .properties => yields .many (Grammar.properties d c)
  | .primary => yields .one (Grammar.primary d c)
  | .parameters => yields .many (Grammar.parameters d c)
  | .functionRest => yields (fun x => .function x.1 x.2) (Grammar.functionRest d c)
  | .block ctx => yields .one (Grammar.block d ctx c)
  | .blockBody ctx => yields .many (Grammar.blockBody d ctx c)
  | .declarators => yields .many (Grammar.declarators d c)
  | .initializer =>
    yields .maybe (if c.at? .assign then do
        let (value, c) ← Grammar.assignment d c.advance
        .ok (some value, c)
      else .ok (none, c))
  | .declaration kind terminated => yields .one (Grammar.declaration d kind terminated c)
  | .parenthesized => yields .one (Grammar.parenthesized d c)
  | .optional closer => yields .maybe (Grammar.optional d closer c)
  | .forInit => yields .maybe (Grammar.forInit d c)
  | .forStatement ctx => yields .one (Grammar.forStatement d ctx c)
  | .result => yields .maybe (if mayEnd c then .ok (none, c) else Grammar.optional d .semicolon c)
  | .statement ctx => yields .one (Grammar.statement d ctx c)
  | .programBody => yields .many (Grammar.programBody d c)

end ScriptDebugger.Grammar
