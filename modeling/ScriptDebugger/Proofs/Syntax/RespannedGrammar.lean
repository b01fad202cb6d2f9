import ScriptDebugger.Proofs.Syntax.Respanned

/-!
# The grammar on tokens in other places

No grammar function looks at where a token is but to say where a phrase is. This is
proved for all functions together, by induction on the depth.
-/

namespace ScriptDebugger.Grammar

open Cursor

variable {m : Displacement}

/-- What the grammar functions give within a depth for the same tokens in other places. Those that
begin with a word are called where the word stands. -/
structure SameReading (m : Displacement) (d : Nat) : Prop where
  assignment : ∀ {c c' : Cursor}, Paired m c c' →
    Alike (Carried m m.phrase) (Grammar.assignment d c) (Grammar.assignment d c')
  conditional : ∀ {c c' : Cursor}, Paired m c c' →
    Alike (Carried m m.phrase) (Grammar.conditional d c) (Grammar.conditional d c')
  operators : ∀ {c c' : Cursor} (n : Nat), Paired m c c' →
    Alike (Carried m m.phrase) (Grammar.operators d n c) (Grammar.operators d n c')
  operatorTail : ∀ {c c' : Cursor} (n : Nat) (left : Phrase), Paired m c c' →
    Alike (Carried m m.phrase) (Grammar.operatorTail d n left c)
      (Grammar.operatorTail d n (m.phrase left) c')
  unary : ∀ {c c' : Cursor}, Paired m c c' →
    Alike (Carried m m.phrase) (Grammar.unary d c) (Grammar.unary d c')
  postfixed : ∀ {c c' : Cursor}, Paired m c c' →
    Alike (Carried m m.phrase) (Grammar.postfixed d c) (Grammar.postfixed d c')
  accesses : ∀ {c c' : Cursor} (calls : Bool) (callee : Phrase), Paired m c c' →
    Alike (Carried m m.phrase) (Grammar.accesses d calls callee c)
      (Grammar.accesses d calls (m.phrase callee) c')
  construction : ∀ {c c' : Cursor}, Paired m c c' → c.atEnd = false →
    Alike (Carried m m.phrase) (Grammar.construction d c) (Grammar.construction d c')
  elements : ∀ {c c' : Cursor} (closer : Punct), Paired m c c' →
    Alike (Carried m (List.map m.phrase)) (Grammar.elements d closer c)
      (Grammar.elements d closer c')
  properties : ∀ {c c' : Cursor}, Paired m c c' →
    Alike (Carried m (List.map m.phrase)) (Grammar.properties d c) (Grammar.properties d c')
  primary : ∀ {c c' : Cursor}, Paired m c c' →
    Alike (Carried m m.phrase) (Grammar.primary d c) (Grammar.primary d c')
  functionRest : ∀ {c c' : Cursor}, Paired m c c' →
    Alike (Carried m (Prod.map (List.map m.phrase) m.phrase)) (Grammar.functionRest d c)
      (Grammar.functionRest d c')
  block : ∀ {c c' : Cursor} (ctx : Context), Paired m c c' →
    Alike (Carried m m.phrase) (Grammar.block d ctx c) (Grammar.block d ctx c')
  blockBody : ∀ {c c' : Cursor} (ctx : Context), Paired m c c' →
    Alike (Carried m (List.map m.phrase)) (Grammar.blockBody d ctx c)
      (Grammar.blockBody d ctx c')
  declarators : ∀ {c c' : Cursor}, Paired m c c' →
    Alike (Carried m (List.map m.phrase)) (Grammar.declarators d c) (Grammar.declarators d c')
  declaration : ∀ {c c' : Cursor} (kind : VarKind) (terminated : Bool), Paired m c c' →
    c.atEnd = false →
    Alike (Carried m m.phrase) (Grammar.declaration d kind terminated c)
      (Grammar.declaration d kind terminated c')
  parenthesized : ∀ {c c' : Cursor}, Paired m c c' →
    Alike (Carried m m.phrase) (Grammar.parenthesized d c) (Grammar.parenthesized d c')
  optional : ∀ {c c' : Cursor} (closer : Punct), Paired m c c' →
    Alike (Carried m (Option.map m.phrase)) (Grammar.optional d closer c)
      (Grammar.optional d closer c')
  forInit : ∀ {c c' : Cursor}, Paired m c c' →
    Alike (Carried m (Option.map m.phrase)) (Grammar.forInit d c) (Grammar.forInit d c')
  forStatement : ∀ {c c' : Cursor} (ctx : Context), Paired m c c' → c.atEnd = false →
    Alike (Carried m m.phrase) (Grammar.forStatement d ctx c) (Grammar.forStatement d ctx c')
  statement : ∀ {c c' : Cursor} (ctx : Context), Paired m c c' →
    Alike (Carried m m.phrase) (Grammar.statement d ctx c) (Grammar.statement d ctx c')

section Succ

variable {d : Nat} {c c' : Cursor} (ih : SameReading m d) (h : Paired m c c')
include ih h

lemma assignment_alike :
    Alike (Carried m m.phrase) (Grammar.assignment (d + 1) c) (Grammar.assignment (d + 1) c') := by
  rw [Grammar.assignment, Grammar.assignment]
  refine (ih.conditional h).bind ?_
  rintro _ _ ⟨h₁⟩
  dsimp only
  rw [h₁.kind_eq]
  split
  · exact .intro h₁
  · refine (checkTarget_alike _).bind fun _ _ _ => ?_
    refine (ih.assignment h₁.advance).bind ?_
    rintro _ _ ⟨h₂⟩
    exact .node h₂ (m.merge_phrase _ _)

lemma conditional_alike :
    Alike (Carried m m.phrase) (Grammar.conditional (d + 1) c)
      (Grammar.conditional (d + 1) c') := by
  rw [Grammar.conditional, Grammar.conditional]
  refine (ih.operators 1 h).bind ?_
  rintro _ _ ⟨h₁⟩
  dsimp only
  rw [h₁.at?_eq]
  split
  · refine (ih.assignment h₁.advance).bind ?_
    rintro _ _ ⟨h₂⟩
    refine (expect_alike h₂ .colon).bind ?_
    rintro c₃ c₃' ⟨-, h₃⟩
    refine (ih.assignment h₃).bind ?_
    rintro _ _ ⟨h₄⟩
    exact .node h₄ (m.merge_phrase _ _)
  · exact .intro h₁

lemma operators_alike (n : Nat) :
    Alike (Carried m m.phrase) (Grammar.operators (d + 1) n c)
      (Grammar.operators (d + 1) n c') := by
  rw [Grammar.operators, Grammar.operators]
  refine (ih.unary h).bind ?_
  rintro _ _ ⟨h₁⟩
  exact ih.operatorTail n _ h₁

lemma operatorTail_alike (n : Nat) (left : Phrase) :
    Alike (Carried m m.phrase) (Grammar.operatorTail (d + 1) n left c)
      (Grammar.operatorTail (d + 1) n (m.phrase left) c') := by
  rw [Grammar.operatorTail, Grammar.operatorTail, h.kind_eq]
  split
  · exact .intro h
  · split
    · exact .intro h
    · refine (ih.operators _ h.advance).bind ?_
      rintro _ _ ⟨h₁⟩
      dsimp only
      rw [m.phrase_node]
      exact ih.operatorTail n _ h₁

lemma unary_alike :
    Alike (Carried m m.phrase) (Grammar.unary (d + 1) c) (Grammar.unary (d + 1) c') := by
  rw [Grammar.unary, Grammar.unary, h.kind_eq]
  split
  · rename_i op token
    have more := not_atEnd_of_some rfl token
    refine (ih.unary h.advance).bind ?_
    rintro _ _ ⟨h₁⟩
    exact .node h₁ (h.merge_eq more _)
  · split
    · rename_i op token
      have more := not_atEnd_of_some rfl token
      refine (ih.unary h.advance).bind ?_
      rintro _ _ ⟨h₁⟩
      refine (checkTarget_alike _).bind fun _ _ _ => ?_
      exact .node h₁ (h.merge_eq more _)
    · exact ih.postfixed h

omit h in
/-- What a chain of accesses begins with. -/
lemma head_alike {c c' : Cursor} (h : Paired m c c') :
    Alike (Carried m m.phrase)
      (if c.atKeyword? .newWord then Grammar.construction d c else Grammar.primary d c)
      (if c'.atKeyword? .newWord then Grammar.construction d c' else Grammar.primary d c') := by
  rw [h.atKeyword?_eq]
  split
  · rename_i word
    exact ih.construction h (not_atEnd_of_kind (TokenKind.isKeyword .newWord) rfl word)
  · exact ih.primary h

lemma postfixed_alike :
    Alike (Carried m m.phrase) (Grammar.postfixed (d + 1) c) (Grammar.postfixed (d + 1) c') := by
  have head := head_alike ih h
  rw [h.atKeyword?_eq] at head
  rw [Grammar.postfixed, Grammar.postfixed, h.atKeyword?_eq]
  refine head.bind_ite ?_
  rintro _ _ ⟨h₁⟩
  refine (ih.accesses true _ h₁).bind ?_
  rintro _ _ ⟨h₂⟩
  dsimp only
  rw [h₂.newline_eq, h₂.kind_eq]
  split
  · exact .intro h₂
  · split
    · exact .intro h₂
    · rename_i op token
      have more := not_atEnd_of_some rfl token
      refine (checkTarget_alike _).bind fun _ _ _ => ?_
      refine .node h₂.advance ?_
      rw [m.span_phrase, h₂.span_eq more, m.span_merge]

lemma accesses_alike (calls : Bool) (callee : Phrase) :
    Alike (Carried m m.phrase) (Grammar.accesses (d + 1) calls callee c)
      (Grammar.accesses (d + 1) calls (m.phrase callee) c') := by
  -- each access makes a longer callee, which the rest of the chain begins with
  have chain {c₁ c₁' : Cursor} (h₁ : Paired m c₁ c₁') (kind : NodeKind Phrase) :
      Alike (Carried m m.phrase)
        (Grammar.accesses d calls ⟨c₁.spanFrom callee.span, kind⟩ c₁)
        (Grammar.accesses d calls
          ⟨c₁'.spanFrom (m.phrase callee).span, kind.map m.phrase⟩ c₁') := by
    rw [m.span_phrase, h₁.spanFrom_eq, ← m.phrase_mk]
    exact ih.accesses calls _ h₁
  rw [Grammar.accesses, Grammar.accesses, h.at?_eq, h.at?_eq, h.at?_eq]
  split
  · refine (ih.elements .rightParen h.advance).bind ?_
    rintro arguments _ ⟨h₁⟩
    refine (expect_alike h₁ .rightParen).bind ?_
    rintro c₂ c₂' ⟨-, h₂⟩
    exact chain h₂ (.callExpression callee _)
  split
  · refine (propertyName_alike h.advance).bind ?_
    rintro _ _ ⟨h₁⟩
    exact chain h₁ (.memberExpression callee _ false)
  split
  · refine (ih.assignment h.advance).bind ?_
    rintro _ _ ⟨h₁⟩
    refine (expect_alike h₁ .rightBracket).bind ?_
    rintro c₂ c₂' ⟨-, h₂⟩
    exact chain h₂ (.memberExpression callee _ true)
  · exact .intro h

lemma construction_alike (more : c.atEnd = false) :
    Alike (Carried m m.phrase) (Grammar.construction (d + 1) c)
      (Grammar.construction (d + 1) c') := by
  have head := head_alike ih h.advance
  rw [h.advance.atKeyword?_eq] at head
  rw [Grammar.construction, Grammar.construction, h.advance.atKeyword?_eq]
  refine head.bind_ite ?_
  rintro _ _ ⟨h₁⟩
  refine (ih.accesses false _ h₁).bind ?_
  rintro _ _ ⟨h₂⟩
  dsimp only
  rw [h₂.at?_eq]
  split
  · refine (ih.elements .rightParen h₂.advance).bind ?_
    rintro _ _ ⟨h₃⟩
    refine (expect_alike h₃ .rightParen).bind ?_
    rintro c₄ c₄' ⟨-, h₄⟩
    exact .node h₄ (h.from_eq more h₄)
  · exact .node h₂ (h.from_eq more h₂)

lemma elements_alike (closer : Punct) :
    Alike (Carried m (List.map m.phrase)) (Grammar.elements (d + 1) closer c)
      (Grammar.elements (d + 1) closer c') := by
  rw [Grammar.elements, Grammar.elements, h.at?_eq]
  split
  · exact .intro h
  · refine (ih.assignment h).bind ?_
    rintro _ _ ⟨h₁⟩
    dsimp only
    rw [h₁.at?_eq]
    split
    · refine (ih.elements closer h₁.advance).bind ?_
      rintro _ _ ⟨h₂⟩
      exact .intro h₂
    · exact .intro h₁

lemma properties_alike :
    Alike (Carried m (List.map m.phrase)) (Grammar.properties (d + 1) c)
      (Grammar.properties (d + 1) c') := by
  rw [Grammar.properties, Grammar.properties, h.at?_eq]
  split
  · exact .intro h
  · refine (propertyKey_alike h).bind ?_
    rintro _ _ ⟨more, ⟨h₁⟩⟩
    refine (expect_alike h₁ .colon).bind ?_
    rintro c₂ c₂' ⟨-, h₂⟩
    refine (ih.assignment h₂).bind ?_
    rintro ⟨value, c₃⟩ _ ⟨h₃⟩
    have property (key : String) :
        m.phrase ⟨c.span.merge value.span, .property key value⟩ =
          ⟨c'.span.merge (m.phrase value).span, .property key (m.phrase value)⟩ := by
      rw [m.phrase_mk, h.merge_eq more]
      rfl
    dsimp only
    rw [h₃.at?_eq, ← property]
    split
    · refine (ih.properties h₃.advance).bind ?_
      rintro _ _ ⟨h₄⟩
      exact .intro h₄
    · exact .intro h₃

lemma primary_alike :
    Alike (Carried m m.phrase) (Grammar.primary (d + 1) c) (Grammar.primary (d + 1) c') := by
  have token {k : TokenKind} (h : c.kind = k) (hk : k.isEndOfInput = false) : c.atEnd = false :=
    not_atEnd_of_kind_eq h hk
  rw [Grammar.primary, Grammar.primary, h.kind_eq]
  dsimp only
  split
  case h_1 x hk => exact .node h.advance (h.span_eq (token hk rfl))
  case h_2 x hk => exact .node h.advance (h.span_eq (token hk rfl))
  case h_3 hk => exact .node h.advance (h.span_eq (token hk rfl))
  case h_4 hk => exact .node h.advance (h.span_eq (token hk rfl))
  case h_5 hk => exact .node h.advance (h.span_eq (token hk rfl))
  case h_6 name hk =>
    refine (refuseArrow_alike h.advance).bind fun _ _ _ => ?_
    exact .node h.advance (h.span_eq (token hk rfl))
  case h_7 hk =>
    refine (ih.assignment h.advance).bind ?_
    rintro _ _ ⟨h₁⟩
    refine (expect_alike h₁ .rightParen).bind ?_
    rintro c₂ c₂' ⟨-, h₂⟩
    refine (refuseArrow_alike h₂).bind fun _ _ _ => ?_
    exact .intro h₂
  case h_8 hk =>
    refine (ih.elements .rightBracket h.advance).bind ?_
    rintro _ _ ⟨h₁⟩
    refine (expect_alike h₁ .rightBracket).bind ?_
    rintro c₂ c₂' ⟨-, h₂⟩
    exact .node h₂ (h.from_eq (token hk rfl) h₂)
  case h_9 hk =>
    refine (ih.properties h.advance).bind ?_
    rintro _ _ ⟨h₁⟩
    refine (expect_alike h₁ .rightBrace).bind ?_
    rintro c₂ c₂' ⟨-, h₂⟩
    exact .node h₂ (h.from_eq (token hk rfl) h₂)
  case h_10 hk =>
    rw [h.advance.kind_eq]
    split
    · rename_i name hname
      have binder : m.phrase ⟨c.advance.span, .identifier name⟩ =
          ⟨c'.advance.span, .identifier name⟩ := by
        rw [m.phrase_mk, h.advance.span_eq (not_atEnd_of_kind_eq hname rfl)]
        rfl
      refine (ih.functionRest h.advance.advance).bind ?_
      rintro ⟨⟨params, body⟩, c₁⟩ _ ⟨h₁⟩
      rw [← binder]
      refine .of_eq h₁ (Eq.symm ?_)
      rw [m.phrase_mk, NodeKind.map_functionExpression, ← h.from_eq (token hk rfl) h₁]
      rfl
    · refine (ih.functionRest h.advance).bind ?_
      rintro ⟨⟨params, body⟩, c₁⟩ _ ⟨h₁⟩
      refine .of_eq h₁ (Eq.symm ?_)
      rw [m.phrase_mk, NodeKind.map_functionExpression, ← h.from_eq (token hk rfl) h₁]
      rfl
  case h_11 => rfl
  case h_12 => exact unexpected_alike h _

lemma functionRest_alike :
    Alike (Carried m (Prod.map (List.map m.phrase) m.phrase)) (Grammar.functionRest (d + 1) c)
      (Grammar.functionRest (d + 1) c') := by
  rw [Grammar.functionRest, Grammar.functionRest]
  refine (expect_alike h .leftParen).bind ?_
  rintro c₁ c₁' ⟨-, h₁⟩
  refine (parameters_alike h₁ d).bind ?_
  rintro _ _ ⟨h₂⟩
  refine (expect_alike h₂ .rightParen).bind ?_
  rintro c₃ c₃' ⟨-, h₃⟩
  refine (ih.block _ h₃).bind ?_
  rintro _ _ ⟨h₄⟩
  exact .intro h₄

lemma block_alike (ctx : Context) :
    Alike (Carried m m.phrase) (Grammar.block (d + 1) ctx c) (Grammar.block (d + 1) ctx c') := by
  rw [Grammar.block, Grammar.block]
  refine (expect_alike h .leftBrace).bind ?_
  rintro c₁ c₁' ⟨more, h₁⟩
  refine (ih.blockBody ctx h₁).bind ?_
  rintro _ _ ⟨h₂⟩
  exact .node h₂.advance (h.from_eq more h₂.advance)

lemma blockBody_alike (ctx : Context) :
    Alike (Carried m (List.map m.phrase)) (Grammar.blockBody (d + 1) ctx c)
      (Grammar.blockBody (d + 1) ctx c') := by
  rw [Grammar.blockBody, Grammar.blockBody, h.at?_eq, h.atEnd_eq]
  split
  · exact .intro h
  split
  · exact unexpected_alike h _
  · refine (ih.statement ctx h).bind ?_
    rintro _ _ ⟨h₁⟩
    refine (ih.blockBody ctx h₁).bind ?_
    rintro _ _ ⟨h₂⟩
    exact .intro h₂

lemma declaration_alike (kind : VarKind) (terminated : Bool) (more : c.atEnd = false) :
    Alike (Carried m m.phrase) (Grammar.declaration (d + 1) kind terminated c)
      (Grammar.declaration (d + 1) kind terminated c') := by
  rw [Grammar.declaration, Grammar.declaration]
  refine (ih.declarators h.advance).bind ?_
  rintro ⟨names, c₁⟩ _ ⟨h₁⟩
  rename_i c₁'
  have stop : Alike (Paired m) (if terminated then endStatement c₁ else .ok c₁)
      (if terminated then endStatement c₁' else .ok c₁') := by
    split
    · exact endStatement_alike h₁
    · exact h₁
  refine stop.bind_ite ?_
  intro c₂ c₂' h₂
  exact .node h₂ (h.from_eq more h₂)

lemma parenthesized_alike :
    Alike (Carried m m.phrase) (Grammar.parenthesized (d + 1) c)
      (Grammar.parenthesized (d + 1) c') := by
  rw [Grammar.parenthesized, Grammar.parenthesized]
  refine (expect_alike h .leftParen).bind ?_
  rintro c₁ c₁' ⟨-, h₁⟩
  refine (ih.assignment h₁).bind ?_
  rintro _ _ ⟨h₂⟩
  refine (expect_alike h₂ .rightParen).bind ?_
  rintro c₃ c₃' ⟨-, h₃⟩
  exact .intro h₃

lemma optional_alike (closer : Punct) :
    Alike (Carried m (Option.map m.phrase)) (Grammar.optional (d + 1) closer c)
      (Grammar.optional (d + 1) closer c') := by
  rw [Grammar.optional, Grammar.optional, h.at?_eq]
  split
  · exact .intro h
  · refine (ih.assignment h).bind ?_
    rintro _ _ ⟨h₁⟩
    exact .intro h₁

lemma declarators_alike :
    Alike (Carried m (List.map m.phrase)) (Grammar.declarators (d + 1) c)
      (Grammar.declarators (d + 1) c') := by
  rw [Grammar.declarators, Grammar.declarators]
  refine (bindingIdentifier_alike h).bind ?_
  rintro ⟨name, c₁⟩ _ ⟨h₁⟩
  rename_i c₁'
  have rest {c₂ c₂' : Cursor} (init : Option Phrase) (h₂ : Paired m c₂ c₂') :
      Alike (Carried m (List.map m.phrase))
        (if c₂.at? .comma then
          Grammar.declarators d c₂.advance >>= fun x =>
            .ok (⟨c₂.spanFrom name.span, .variableDeclarator name init⟩ :: x.1, x.2)
        else .ok ([⟨c₂.spanFrom name.span, .variableDeclarator name init⟩], c₂))
        (if c₂'.at? .comma then
          Grammar.declarators d c₂'.advance >>= fun x =>
            .ok (⟨c₂'.spanFrom (m.phrase name).span,
              .variableDeclarator (m.phrase name) (init.map m.phrase)⟩ :: x.1, x.2)
        else .ok ([⟨c₂'.spanFrom (m.phrase name).span,
          .variableDeclarator (m.phrase name) (init.map m.phrase)⟩], c₂')) := by
    have declarator : m.phrase ⟨c₂.spanFrom name.span, .variableDeclarator name init⟩ =
        ⟨c₂'.spanFrom (m.phrase name).span,
          .variableDeclarator (m.phrase name) (init.map m.phrase)⟩ := by
      rw [m.phrase_mk, m.span_phrase, h₂.spanFrom_eq, NodeKind.map_variableDeclarator]
    rw [h₂.at?_eq, ← declarator]
    split
    · refine (ih.declarators h₂.advance).bind ?_
      rintro _ _ ⟨h₃⟩
      exact .intro h₃
    · exact .intro h₂
  dsimp only
  rw [h₁.at?_eq]
  split
  · refine (ih.assignment h₁.advance).bind ?_
    rintro ⟨value, c₂⟩ _ ⟨h₂⟩
    exact rest (some value) h₂
  · exact rest none h₁

lemma forInit_alike :
    Alike (Carried m (Option.map m.phrase)) (Grammar.forInit (d + 1) c)
      (Grammar.forInit (d + 1) c') := by
  rw [Grammar.forInit, Grammar.forInit, h.kind_eq]
  split
  case h_4 => exact ih.optional .semicolon h
  all_goals
    rename_i token
    refine (ih.declaration _ false h (not_atEnd_of_kind_eq token rfl)).bind ?_
    rintro _ _ ⟨h₁⟩
    exact .intro h₁

lemma forStatement_alike (ctx : Context) (more : c.atEnd = false) :
    Alike (Carried m m.phrase) (Grammar.forStatement (d + 1) ctx c)
      (Grammar.forStatement (d + 1) ctx c') := by
  rw [Grammar.forStatement, Grammar.forStatement]
  refine (expect_alike h.advance .leftParen).bind ?_
  rintro c₁ c₁' ⟨-, h₁⟩
  refine (ih.forInit h₁).bind ?_
  rintro _ _ ⟨h₂⟩
  dsimp only
  rw [h₂.kind_eq]
  split
  · rfl
  · refine (expect_alike h₂ .semicolon).bind ?_
    rintro c₃ c₃' ⟨-, h₃⟩
    refine (ih.optional .semicolon h₃).bind ?_
    rintro _ _ ⟨h₄⟩
    refine (expect_alike h₄ .semicolon).bind ?_
    rintro c₅ c₅' ⟨-, h₅⟩
    refine (ih.optional .rightParen h₅).bind ?_
    rintro _ _ ⟨h₆⟩
    refine (expect_alike h₆ .rightParen).bind ?_
    rintro c₇ c₇' ⟨-, h₇⟩
    refine (ih.statement _ h₇).bind ?_
    rintro _ _ ⟨h₈⟩
    refine .of_eq h₈ (Eq.symm ?_)
    rw [m.phrase_mk, NodeKind.map_forStatement, ← h.from_eq more h₈]

lemma statement_alike (ctx : Context) :
    Alike (Carried m m.phrase) (Grammar.statement (d + 1) ctx c)
      (Grammar.statement (d + 1) ctx c') := by
  have token {k : TokenKind} (h : c.kind = k) (hk : k.isEndOfInput = false) : c.atEnd = false :=
    not_atEnd_of_kind_eq h hk
  -- a word that makes a statement alone
  have word (more : c.atEnd = false) (kind : NodeKind Phrase) :
      Alike (Carried m m.phrase)
        (endStatement c.advance >>= fun c₁ => .ok (⟨c₁.spanFrom c.span, kind⟩, c₁))
        (endStatement c'.advance >>= fun c₁ =>
          .ok (⟨c₁.spanFrom c'.span, kind.map m.phrase⟩, c₁)) := by
    refine (endStatement_alike h.advance).bind ?_
    intro c₁ c₁' h₁
    exact .node h₁ (h.from_eq more h₁)
  rw [Grammar.statement, Grammar.statement, h.kind_eq]
  dsimp only
  split
  case h_1 => exact ih.block ctx h
  case h_2 hk => exact ih.declaration _ true h (token hk rfl)
  case h_3 hk => exact ih.declaration _ true h (token hk rfl)
  case h_4 hk => exact ih.declaration _ true h (token hk rfl)
  case h_5 hk =>
    refine (bindingIdentifier_alike h.advance).bind ?_
    rintro _ _ ⟨h₁⟩
    refine (ih.functionRest h₁).bind ?_
    rintro ⟨⟨params, body⟩, c₂⟩ _ ⟨h₂⟩
    refine .of_eq h₂ (Eq.symm ?_)
    rw [m.phrase_mk, NodeKind.map_functionDeclaration, ← h.from_eq (token hk rfl) h₂]
    rfl
  case h_6 hk =>
    refine (ih.parenthesized h.advance).bind ?_
    rintro _ _ ⟨h₁⟩
    refine (ih.statement ctx h₁).bind ?_
    rintro _ _ ⟨h₂⟩
    dsimp only
    rw [h₂.atKeyword?_eq]
    split
    · refine (ih.statement ctx h₂.advance).bind ?_
      rintro _ _ ⟨h₃⟩
      exact .node h₃ (h.from_eq (token hk rfl) h₃)
    · exact .node h₂ (h.from_eq (token hk rfl) h₂)
  case h_7 hk => exact ih.forStatement ctx h (token hk rfl)
  case h_8 hk =>
    refine (ih.parenthesized h.advance).bind ?_
    rintro _ _ ⟨h₁⟩
    refine (ih.statement _ h₁).bind ?_
    rintro _ _ ⟨h₂⟩
    exact .node h₂ (h.from_eq (token hk rfl) h₂)
  case h_9 hk =>
    split
    · rfl
    · have result : Alike (Carried m (Option.map m.phrase))
          (if mayEnd c.advance then .ok (none, c.advance)
          else Grammar.optional d .semicolon c.advance)
          (if mayEnd c.advance then .ok (none, c'.advance)
          else Grammar.optional d .semicolon c'.advance) := by
        split
        · exact .intro h.advance
        · exact ih.optional .semicolon h.advance
      rw [h.advance.mayEnd_eq]
      refine result.bind_ite ?_
      rintro ⟨argument, c₁⟩ _ ⟨h₁⟩
      refine (endStatement_alike h₁).bind ?_
      intro c₂ c₂' h₂
      refine .of_eq h₂ (Eq.symm ?_)
      rw [m.phrase_mk, NodeKind.map_returnStatement, ← h.from_eq (token hk rfl) h₂]
  case h_10 hk =>
    rw [h.advance.newline_eq]
    split
    · rfl
    · refine (ih.assignment h.advance).bind ?_
      rintro _ _ ⟨h₁⟩
      refine (endStatement_alike h₁).bind ?_
      intro c₂ c₂' h₂
      exact .node h₂ (h.from_eq (token hk rfl) h₂)
  case h_11 hk =>
    split
    · rfl
    · exact word (token hk rfl) .breakStatement
  case h_12 hk =>
    split
    · rfl
    · exact word (token hk rfl) .continueStatement
  case h_13 hk => exact word (token hk rfl) .debuggerStatement
  case h_14 hk => exact .node h.advance (h.span_eq (token hk rfl))
  case h_15 => rfl
  case h_16 =>
    refine (ih.assignment h).and_ok.bind ?_
    rintro ⟨expression, c₁⟩ _ ⟨read, ⟨h₁⟩⟩
    have derived : Derives d .assignment c (.one expression) c₁ := derives_iff.mpr (yields_ok read)
    refine (endStatement_alike h₁).bind ?_
    intro c₂ c₂' h₂
    exact .node h₂ (h.from_eq (derived.not_atEnd rfl) h₂)

end Succ

theorem sameReading (m : Displacement) (d : Nat) : SameReading m d := by
  induction d with
  | zero => constructor <;> intros <;> rfl
  | succ d ih =>
    exact {
      assignment := assignment_alike ih
      conditional := conditional_alike ih
      operators := fun n h => operators_alike ih h n
      operatorTail := fun n left h => operatorTail_alike ih h n left
      unary := unary_alike ih
      postfixed := postfixed_alike ih
      accesses := fun calls callee h => accesses_alike ih h calls callee
      construction := construction_alike ih
      elements := fun closer h => elements_alike ih h closer
      properties := properties_alike ih
      primary := primary_alike ih
      functionRest := functionRest_alike ih
      block := fun ctx h => block_alike ih h ctx
      blockBody := fun ctx h => blockBody_alike ih h ctx
      declarators := declarators_alike ih
      declaration := fun kind terminated h => declaration_alike ih h kind terminated
      parenthesized := parenthesized_alike ih
      optional := fun closer h => optional_alike ih h closer
      forInit := forInit_alike ih
      forStatement := fun ctx h => forStatement_alike ih h ctx
      statement := fun ctx h => statement_alike ih h ctx }

theorem programBody_alike (d : Nat) {c c' : Cursor} (h : Paired m c c') :
    Alike (Carried m (List.map m.phrase)) (programBody d c) (programBody d c') := by
  induction d generalizing c c' with
  | zero => rfl
  | succ d ih =>
    rw [programBody, programBody, h.atEnd_eq]
    split
    · exact .intro h
    · refine ((sameReading m d).statement _ h).bind ?_
      rintro _ _ ⟨h₁⟩
      refine (ih h₁).bind ?_
      rintro _ _ ⟨h₂⟩
      exact .intro h₂

/-- Programs of the same tokens in other places have the same statements in other places. -/
theorem program_alike {tokens tokens' : List Token} (size size' : Nat)
    (twins : List.Forall₂ (Token.Twin m) tokens tokens') (origin : m.stop 0 = 0) :
    Alike (fun p p' => ∃ body, p = ⟨⟨0, size⟩, .program body⟩ ∧
        p' = ⟨⟨0, size'⟩, .program (body.map m.phrase)⟩)
      (program size tokens) (program size' tokens') := by
  have start : Paired m (.start tokens) (.start tokens') := ⟨twins, origin.symm⟩
  rw [program, program, ← twins.length_eq]
  refine (programBody_alike _ start).bind ?_
  rintro ⟨body, c⟩ _ ⟨-⟩
  exact ⟨body, rfl, rfl⟩

end ScriptDebugger.Grammar
