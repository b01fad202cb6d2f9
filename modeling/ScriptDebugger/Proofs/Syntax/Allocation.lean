import ScriptDebugger.Proofs.Syntax.Numbering
import ScriptDebugger.Proofs.Syntax.Recognition
import ScriptDebugger.Syntax.Parser

/-!
# What a parser allocates

A function of the parser reads what its namesake in the grammar of phrases does,
and the nodes that it allocates on the way are those of the phrase that it has
read, each once and in post-order: what a phrase is made of is allocated first
and taken by the node that comes after it (`Parser.alloc_children`). This is shown
one function after another (`Parser.Allocates`), so a text that parses has the tree
that numbering its phrase gives (`Tree.parse_eq`).
-/

namespace ScriptDebugger

open Grammar

namespace Parser

/-- With the nodes of a phrase. -/
def put (p : Parser) (q : Phrase) : Parser :=
  { p with tree := { p.tree with nodes := q.number p.locate p.tree.nodes } }

/-- The number that the own node of a phrase gets. -/
def idOf (p : Parser) (q : Phrase) : NodeId := (q.number p.locate p.tree.nodes).size - 1

/-- With the nodes of phrases one after another. -/
def putAll (p : Parser) (qs : List Phrase) : Parser :=
  { p with tree := { p.tree with nodes := (Phrase.numberAll p.locate p.tree.nodes qs).1 } }

def idsOf (p : Parser) (qs : List Phrase) : List NodeId :=
  (Phrase.numberAll p.locate p.tree.nodes qs).2

/-- What a phrase that is read up to `c` leaves. -/
def enter (p : Parser) : Phrase × Cursor → NodeId × Parser
  | (q, c) => (p.idOf q, (p.put q).moveTo c)

def enterAll (p : Parser) : List Phrase × Cursor → List NodeId × Parser
  | (qs, c) => (p.idsOf qs, (p.putAll qs).moveTo c)

def enterOption (p : Parser) : Option Phrase × Cursor → Option NodeId × Parser
  | (o, c) => (o.map p.idOf, (p.putAll o.toList).moveTo c)

def enterFunction (p : Parser) :
    (List Phrase × Phrase) × Cursor → (List NodeId × NodeId) × Parser
  | ((params, body), c) =>
    ((p.idsOf params, (p.putAll params).idOf body), ((p.putAll params).put body).moveTo c)

variable {p : Parser} {q : Phrase} {qs : List Phrase} {c : Cursor} {id : NodeId}

/-- A node takes the nodes of its children, which have been allocated one after another. -/
theorem alloc_children (p : Parser) (kind : NodeKind Phrase) (span : Span) (c : Cursor) :
    ((p.putAll kind.children).moveTo c).alloc (kind.fill (p.idsOf kind.children)) span =
      p.enter (⟨span, kind⟩, c) := by
  have size := Phrase.size_number p.locate p.tree.nodes ⟨span, kind⟩
  rw [enter, put, idOf, size, Phrase.number_eq]
  rfl

lemma putAll_append (p : Parser) (qs rs : List Phrase) :
    p.putAll (qs ++ rs) = (p.putAll qs).putAll rs := by
  induction qs generalizing p with
  | nil => rfl
  | cons q qs ih => exact ih (p.put q)

lemma idsOf_append (p : Parser) (qs rs : List Phrase) :
    p.idsOf (qs ++ rs) = p.idsOf qs ++ (p.putAll qs).idsOf rs := by
  induction qs generalizing p with
  | nil => rfl
  | cons q qs ih => exact congrArg _ (ih (p.put q))

lemma length_idsOf (p : Parser) (qs : List Phrase) : (p.idsOf qs).length = qs.length :=
  Phrase.length_numberAll p.tree.nodes qs

/-- The parameters and the body of a function are taken apart again where they are told by
number. -/
lemma idsOf_function (p : Parser) (params : List Phrase) (body : Phrase) :
    (p.idsOf (params ++ [body])).take params.length = p.idsOf params ∧
      (p.idsOf (params ++ [body])).drop params.length = [(p.putAll params).idOf body] := by
  rw [idsOf_append]
  exact ⟨List.take_left' (p.length_idsOf params), List.drop_left' (p.length_idsOf params)⟩

lemma alloc_functionExpression (p : Parser) (params : List Phrase) (body : Phrase) (span : Span)
    (c : Cursor) :
    (((p.putAll params).put body).moveTo c).alloc
        (.functionExpression none (p.idsOf params) ((p.putAll params).idOf body)) span =
      p.enter (⟨span, .functionExpression none params body⟩, c) := by
  obtain ⟨front, last⟩ := p.idsOf_function params body
  have children : (NodeKind.functionExpression none params body).children = params ++ [body] := rfl
  rw [← alloc_children, children, putAll_append, NodeKind.fill]
  simp only [NodeKind.popOption, front, last]
  rfl

/-- Before them stands the name, if the function has one. -/
lemma idsOf_named (p : Parser) (name : Phrase) (params : List Phrase) (body : Phrase) :
    p.idsOf (name :: (params ++ [body])) =
      p.idOf name :: (p.put name).idsOf (params ++ [body]) := rfl

lemma putAll_named (p : Parser) (name : Phrase) (params : List Phrase) (body : Phrase) :
    p.putAll (name :: (params ++ [body])) = ((p.put name).putAll params).put body :=
  (p.put name).putAll_append params [body]

lemma alloc_namedFunction (p : Parser) (name : Phrase) (params : List Phrase) (body : Phrase)
    (span : Span) (c : Cursor) :
    ((((p.put name).putAll params).put body).moveTo c).alloc
        (.functionExpression (some (p.idOf name)) ((p.put name).idsOf params)
          (((p.put name).putAll params).idOf body)) span =
      p.enter (⟨span, .functionExpression (some name) params body⟩, c) := by
  obtain ⟨front, last⟩ := (p.put name).idsOf_function params body
  have children : (NodeKind.functionExpression (some name) params body).children =
      name :: (params ++ [body]) := rfl
  rw [← alloc_children, children, putAll_named, idsOf_named, NodeKind.fill]
  simp only [NodeKind.popOption, NodeKind.pop, front, last]

lemma alloc_functionDeclaration (p : Parser) (name : Phrase) (params : List Phrase) (body : Phrase)
    (span : Span) (c : Cursor) :
    ((((p.put name).putAll params).put body).moveTo c).alloc
        (.functionDeclaration (p.idOf name) ((p.put name).idsOf params)
          (((p.put name).putAll params).idOf body)) span =
      p.enter (⟨span, .functionDeclaration name params body⟩, c) := by
  obtain ⟨front, last⟩ := (p.put name).idsOf_function params body
  have children : (NodeKind.functionDeclaration name params body).children =
      name :: (params ++ [body]) := rfl
  rw [← alloc_children, children, putAll_named, idsOf_named, NodeKind.fill]
  simp only [NodeKind.pop, front, last]

lemma alloc_forStatement (p : Parser) (init test update : Option Phrase) (body : Phrase)
    (span : Span) (c : Cursor) :
    let p₁ := p.putAll init.toList
    let p₂ := p₁.putAll test.toList
    let p₃ := p₂.putAll update.toList
    ((p₃.put body).moveTo c).alloc (.forStatement (init.map p.idOf) (test.map p₁.idOf)
      (update.map p₂.idOf) (p₃.idOf body)) span =
      p.enter (⟨span, .forStatement init test update body⟩, c) := by
  have all := p.alloc_children (.forStatement init test update body) span c
  cases init <;> cases test <;> cases update <;> exact all

lemma alloc_returnStatement (p : Parser) (argument : Option Phrase) (span : Span) (c : Cursor) :
    ((p.putAll argument.toList).moveTo c).alloc (.returnStatement (argument.map p.idOf)) span =
      p.enter (⟨span, .returnStatement argument⟩, c) := by
  have all := p.alloc_children (.returnStatement argument) span c
  cases argument <;> exact all

lemma extends_put (p : Parser) (q : Phrase) :
    p.tree.nodes.toList <+: (p.put q).tree.nodes.toList := Phrase.number_extends q p.tree.nodes

lemma extends_putAll (p : Parser) (qs : List Phrase) :
    p.tree.nodes.toList <+: (p.putAll qs).tree.nodes.toList :=
  Phrase.numberAll_extends qs p.tree.nodes

/-- A node that is that of a phrase shows it. -/
def Shows (p : Parser) (q : Phrase) (id : NodeId) : Prop := Phrase.Placed p.tree.nodes q id

lemma shows_put (p : Parser) (q : Phrase) : (p.put q).Shows q (p.idOf q) :=
  Phrase.placed_number p.locate q p.tree.nodes

lemma Shows.put (h : p.Shows q id) (r : Phrase) : (p.put r).Shows q id :=
  Phrase.Placed.mono (p.extends_put r) h

lemma Shows.putAll (h : p.Shows q id) (rs : List Phrase) : (p.putAll rs).Shows q id :=
  Phrase.Placed.mono (p.extends_putAll rs) h

lemma Shows.span_eq (h : p.Shows q id) : p.tree.span id = q.span := by
  obtain ⟨get, -, span, -⟩ := h
  simp [Tree.span, get, span]

lemma Shows.checkTarget_eq (h : p.Shows q id) (c : Cursor) :
    (p.moveTo c).checkTarget id = Grammar.checkTarget q := by
  obtain ⟨get, kind, span, -⟩ := h
  simp only [checkTarget, moveTo, Grammar.checkTarget, Tree.kind, Tree.span, get, kind]
  cases q with
  | mk s k => cases k <;> simp_all [Phrase.kind, NodeKind.fill, Phrase.span]

variable (p c)

lemma cursor_moveTo : (p.moveTo c).cursor = c := rfl

lemma tree_moveTo : (p.moveTo c).tree = p.tree := rfl

lemma advance_moveTo : (p.moveTo c).advance = p.moveTo c.advance := rfl

lemma expect_moveTo (punct : Punct) : (p.moveTo c).expect punct = (c.expect punct).map p.moveTo :=
  rfl

lemma endStatement_moveTo :
    (p.moveTo c).endStatement = (Grammar.endStatement c).map p.moveTo := rfl

lemma spanFrom_moveTo : (p.moveTo c).spanFrom id = c.spanFrom (p.tree.span id) := rfl

lemma bindingIdentifier_moveTo :
    (p.moveTo c).bindingIdentifier = (Grammar.bindingIdentifier c).map p.enter := by
  rw [bindingIdentifier, Grammar.bindingIdentifier, cursor_moveTo]
  cases c.kind with
  | ident name => exact congrArg Except.ok (p.alloc_children (.identifier name) c.span c.advance)
  | _ => rfl

lemma propertyName_moveTo :
    (p.moveTo c).propertyName = (Grammar.propertyName c).map p.enter := by
  rw [propertyName, Grammar.propertyName, cursor_moveTo]
  cases c.kind with
  | ident name => exact congrArg Except.ok (p.alloc_children (.identifier name) c.span c.advance)
  | reserved name => exact congrArg Except.ok (p.alloc_children (.identifier name) c.span c.advance)
  | _ => rfl

section Search

variable {α β γ δ : Type}

lemma bind_entered {found : Result α} {enter : α → β} {f : β → Result γ} {g : α → Result δ}
    {enter' : δ → γ} (next : ∀ a, f (enter a) = (g a).map enter') :
    found.map enter >>= f = (found >>= g).map enter' := by
  cases found with
  | error e => rfl
  | ok a => exact next a

lemma bind_pair {found : Result (α × Cursor)} {enter : α × Cursor → β} {f : β → Result γ}
    {g : α × Cursor → Result δ} {enter' : δ → γ}
    (next : ∀ a c, f (enter (a, c)) = (g (a, c)).map enter') :
    found.map enter >>= f = (found >>= g).map enter' :=
  bind_entered fun x => next x.1 x.2

lemma bind_checked {found : Result α} {f : α → Result γ} {g : α → Result δ}
    {enter' : δ → γ} (next : ∀ a, f a = (g a).map enter') :
    found >>= f = (found >>= g).map enter' := by
  cases found with
  | error e => rfl
  | ok a => exact next a

end Search

/-- Every function of the parser finds within `d` what its namesake does and allocates the nodes of
that: it drops none that it has allocated, and takes none twice. -/
structure Allocates (d : Nat) : Prop where
  assignment (p : Parser) (c : Cursor) :
    (p.moveTo c).assignment d = (Grammar.assignment d c).map p.enter
  conditional (p : Parser) (c : Cursor) :
    (p.moveTo c).conditional d = (Grammar.conditional d c).map p.enter
  operators (level : Nat) (p : Parser) (c : Cursor) :
    (p.moveTo c).operators d level = (Grammar.operators d level c).map p.enter
  operatorTail (level : Nat) (left : Phrase) (p : Parser) (c : Cursor) :
    ((p.put left).moveTo c).operatorTail d level (p.idOf left) =
      (Grammar.operatorTail d level left c).map p.enter
  unary (p : Parser) (c : Cursor) : (p.moveTo c).unary d = (Grammar.unary d c).map p.enter
  postfixed (p : Parser) (c : Cursor) :
    (p.moveTo c).postfixed d = (Grammar.postfixed d c).map p.enter
  accesses (calls : Bool) (callee : Phrase) (p : Parser) (c : Cursor) :
    ((p.put callee).moveTo c).accesses d calls (p.idOf callee) =
      (Grammar.accesses d calls callee c).map p.enter
  construction (p : Parser) (c : Cursor) :
    (p.moveTo c).construction d = (Grammar.construction d c).map p.enter
  elements (closer : Punct) (p : Parser) (c : Cursor) :
    (p.moveTo c).elements d closer = (Grammar.elements d closer c).map p.enterAll
  properties (p : Parser) (c : Cursor) :
    (p.moveTo c).properties d = (Grammar.properties d c).map p.enterAll
  primary (p : Parser) (c : Cursor) : (p.moveTo c).primary d = (Grammar.primary d c).map p.enter
  parameters (p : Parser) (c : Cursor) :
    (p.moveTo c).parameters d = (Grammar.parameters d c).map p.enterAll
  functionRest (p : Parser) (c : Cursor) :
    (p.moveTo c).functionRest d = (Grammar.functionRest d c).map p.enterFunction
  block (ctx : Context) (p : Parser) (c : Cursor) :
    (p.moveTo c).block d ctx = (Grammar.block d ctx c).map p.enter
  blockBody (ctx : Context) (p : Parser) (c : Cursor) :
    (p.moveTo c).blockBody d ctx = (Grammar.blockBody d ctx c).map p.enterAll
  declarators (p : Parser) (c : Cursor) :
    (p.moveTo c).declarators d = (Grammar.declarators d c).map p.enterAll
  declaration (kind : VarKind) (terminated : Bool) (p : Parser) (c : Cursor) :
    (p.moveTo c).declaration d kind terminated =
      (Grammar.declaration d kind terminated c).map p.enter
  parenthesized (p : Parser) (c : Cursor) :
    (p.moveTo c).parenthesized d = (Grammar.parenthesized d c).map p.enter
  optional (closer : Punct) (p : Parser) (c : Cursor) :
    (p.moveTo c).optional d closer = (Grammar.optional d closer c).map p.enterOption
  forInit (p : Parser) (c : Cursor) :
    (p.moveTo c).forInit d = (Grammar.forInit d c).map p.enterOption
  forStatement (ctx : Context) (p : Parser) (c : Cursor) :
    (p.moveTo c).forStatement d ctx = (Grammar.forStatement d ctx c).map p.enter
  statement (ctx : Context) (p : Parser) (c : Cursor) :
    (p.moveTo c).statement d ctx = (Grammar.statement d ctx c).map p.enter

variable {d : Nat} (h : Allocates d)
include h

lemma assignment_succ :
    (p.moveTo c).assignment (d + 1) = (Grammar.assignment (d + 1) c).map p.enter := by
  rw [assignment, Grammar.assignment, h.conditional]
  refine bind_pair fun left c => ?_
  dsimp +instances only [enter, cursor_moveTo, advance_moveTo]
  cases assignOp? c.kind with
  | none => rfl
  | some op =>
    have shown := p.shows_put left
    dsimp only
    rw [shown.checkTarget_eq, h.assignment]
    refine bind_checked fun _ => bind_pair fun right c => ?_
    dsimp +instances only [enter, tree_moveTo]
    rw [(shown.put right).span_eq, (shows_put _ right).span_eq]
    exact congrArg Except.ok (p.alloc_children (.assignmentExpression op left right) _ c)

lemma conditional_succ :
    (p.moveTo c).conditional (d + 1) = (Grammar.conditional (d + 1) c).map p.enter := by
  rw [conditional, Grammar.conditional, h.operators]
  refine bind_pair fun test c => ?_
  dsimp +instances only [enter, cursor_moveTo, advance_moveTo]
  split
  case isTrue =>
    rw [h.assignment]
    refine bind_pair fun consequent c => ?_
    dsimp +instances only [enter, expect_moveTo]
    refine bind_entered fun c => ?_
    rw [h.assignment]
    refine bind_pair fun alternate c => ?_
    have shown := ((p.shows_put test).put consequent).put alternate
    dsimp +instances only [enter, tree_moveTo]
    rw [shown.span_eq, (shows_put _ alternate).span_eq]
    exact congrArg Except.ok
      (p.alloc_children (.conditionalExpression test consequent alternate) _ c)
  case isFalse => rfl

lemma operators_succ (level : Nat) :
    (p.moveTo c).operators (d + 1) level = (Grammar.operators (d + 1) level c).map p.enter := by
  rw [operators, Grammar.operators, h.unary]
  exact bind_pair fun left c => h.operatorTail level left p c

lemma operatorTail_succ (level : Nat) (left : Phrase) :
    ((p.put left).moveTo c).operatorTail (d + 1) level (p.idOf left) =
      (Grammar.operatorTail (d + 1) level left c).map p.enter := by
  rw [operatorTail, Grammar.operatorTail, cursor_moveTo, advance_moveTo]
  cases infix? c.kind with
  | none => rfl
  | some op =>
    dsimp only
    split
    case isTrue => rfl
    case isFalse =>
      rw [h.operators]
      refine bind_pair fun right c => ?_
      have joined : (((p.put left).put right).moveTo c).alloc
          (op.kind (p.idOf left) ((p.put left).idOf right)) (left.span.merge right.span) =
          p.enter (op.node left right, c) := by
        cases op with
        | binary op => exact p.alloc_children (.binaryExpression op left right) _ c
        | logical op => exact p.alloc_children (.logicalExpression op left right) _ c
      dsimp +instances only [enter, tree_moveTo]
      rw [((p.shows_put left).put right).span_eq, (shows_put _ right).span_eq, joined]
      exact h.operatorTail level (op.node left right) p c

lemma unary_succ : (p.moveTo c).unary (d + 1) = (Grammar.unary (d + 1) c).map p.enter := by
  rw [unary, Grammar.unary]
  dsimp +instances only [cursor_moveTo, advance_moveTo]
  cases unaryOp? c.kind with
  | some op =>
    dsimp only
    rw [h.unary]
    refine bind_pair fun argument c₁ => ?_
    dsimp +instances only [enter, tree_moveTo]
    rw [(p.shows_put argument).span_eq]
    exact congrArg Except.ok (p.alloc_children (.unaryExpression op argument) _ c₁)
  | none =>
    cases updateOp? c.kind with
    | some op =>
      dsimp only
      rw [h.unary]
      refine bind_pair fun argument c₁ => ?_
      have shown := p.shows_put argument
      dsimp +instances only [enter, tree_moveTo]
      rw [shown.checkTarget_eq, shown.span_eq]
      refine bind_checked fun _ => ?_
      exact congrArg Except.ok (p.alloc_children (.updateExpression op true argument) _ c₁)
    | none => exact h.postfixed p c

/-- What a chain of accesses begins with, and what comes behind it. -/
lemma bind_head {α β : Type} {f : NodeId × Parser → Result β} {g : Phrase × Cursor → Result α}
    {enter' : α → β} (next : ∀ q c₁, f (p.idOf q, (p.put q).moveTo c₁) = (g (q, c₁)).map enter') :
    (if c.atKeyword? .newWord then (p.moveTo c).construction d >>= f
      else (p.moveTo c).primary d >>= f) =
      (if c.atKeyword? .newWord then Grammar.construction d c >>= g
        else Grammar.primary d c >>= g).map enter' := by
  split
  case isTrue =>
    rw [h.construction]
    exact bind_pair next
  case isFalse =>
    rw [h.primary]
    exact bind_pair next

lemma postfixed_succ :
    (p.moveTo c).postfixed (d + 1) = (Grammar.postfixed (d + 1) c).map p.enter := by
  rw [postfixed, Grammar.postfixed]
  refine bind_head p c h fun callee c => ?_
  dsimp only
  rw [h.accesses]
  refine bind_pair fun argument c => ?_
  dsimp +instances only [enter, cursor_moveTo, advance_moveTo, tree_moveTo]
  split
  case isTrue => rfl
  case isFalse =>
    cases updateOp? c.kind with
    | none => rfl
    | some op =>
      have shown := p.shows_put argument
      dsimp only
      rw [shown.checkTarget_eq, shown.span_eq]
      refine bind_checked fun _ => ?_
      exact congrArg Except.ok
        (p.alloc_children (.updateExpression op false argument) _ c.advance)

/-- A chain goes on from the node that has been allocated last. -/
lemma accesses_entered {q : Phrase} {x : NodeId × Parser} (entered : x = p.enter (q, c))
    (calls : Bool) :
    x.2.accesses d calls x.1 = (Grammar.accesses d calls q c).map p.enter := by
  subst entered
  exact h.accesses calls q p c

lemma accesses_succ (calls : Bool) (callee : Phrase) :
    ((p.put callee).moveTo c).accesses (d + 1) calls (p.idOf callee) =
      (Grammar.accesses (d + 1) calls callee c).map p.enter := by
  have shown := p.shows_put callee
  rw [accesses, Grammar.accesses]
  dsimp +instances only [cursor_moveTo, advance_moveTo]
  split
  case isTrue =>
    rw [h.elements]
    refine bind_pair fun arguments c => ?_
    dsimp only [enterAll, expect_moveTo]
    refine bind_entered fun c => ?_
    have call := p.alloc_children (.callExpression callee arguments) (c.spanFrom callee.span) c
    dsimp only [spanFrom_moveTo]
    rw [(shown.putAll arguments).span_eq]
    exact accesses_entered p c h call calls
  case isFalse =>
    split
    case isTrue =>
      rw [propertyName_moveTo]
      refine bind_pair fun name c => ?_
      have access := p.alloc_children (.memberExpression callee name false)
        (c.spanFrom callee.span) c
      dsimp only [enter, spanFrom_moveTo]
      rw [(shown.put name).span_eq]
      exact accesses_entered p c h access calls
    case isFalse =>
      split
      case isTrue =>
        rw [h.assignment]
        refine bind_pair fun key c => ?_
        dsimp only [enter, expect_moveTo]
        refine bind_entered fun c => ?_
        have access := p.alloc_children (.memberExpression callee key true)
          (c.spanFrom callee.span) c
        dsimp only [spanFrom_moveTo]
        rw [(shown.put key).span_eq]
        exact accesses_entered p c h access calls
      case isFalse => rfl

lemma construction_succ :
    (p.moveTo c).construction (d + 1) = (Grammar.construction (d + 1) c).map p.enter := by
  rw [construction, Grammar.construction]
  refine bind_head p c.advance h fun callee c => ?_
  dsimp only
  rw [h.accesses]
  refine bind_pair fun callee c => ?_
  dsimp +instances only [enter, cursor_moveTo, advance_moveTo]
  split
  case isTrue =>
    rw [h.elements]
    refine bind_pair fun arguments c => ?_
    dsimp only [enterAll, expect_moveTo]
    refine bind_entered fun c => ?_
    exact congrArg Except.ok (p.alloc_children (.newExpression callee arguments) _ c)
  case isFalse => exact congrArg Except.ok (p.alloc_children (.newExpression callee []) _ c)

omit h in
/-- What comes behind an element of a list, after its node: a comma and more of the list, or the
end of it. -/
lemma listed {q : Phrase} {x : NodeId × Parser} (entered : x = p.enter (q, c))
    {more : Parser → Result (List NodeId × Parser)}
    {found : Cursor → Result (List Phrase × Cursor)}
    (rest : ∀ p c, more (Parser.moveTo p c) = (found c).map p.enterAll) :
    (if x.2.cursor.at? .comma then do
      let (ids, p) ← more x.2.advance
      .ok (x.1 :: ids, p)
    else .ok ([x.1], x.2)) =
    (if c.at? .comma then do
      let (qs, c) ← found c.advance
      .ok (q :: qs, c)
    else .ok ([q], c) : Result (List Phrase × Cursor)).map p.enterAll := by
  subst entered
  dsimp +instances only [enter, cursor_moveTo, advance_moveTo]
  split
  case isTrue =>
    rw [rest]
    exact bind_entered fun _ => rfl
  case isFalse => rfl

lemma elements_succ (closer : Punct) :
    (p.moveTo c).elements (d + 1) closer =
      (Grammar.elements (d + 1) closer c).map p.enterAll := by
  rw [elements, Grammar.elements]
  dsimp +instances only [cursor_moveTo]
  split
  case isTrue => rfl
  case isFalse =>
    rw [h.assignment]
    exact bind_pair fun element c => listed p c rfl (h.elements closer)

lemma properties_succ :
    (p.moveTo c).properties (d + 1) = (Grammar.properties (d + 1) c).map p.enterAll := by
  rw [properties, Grammar.properties]
  dsimp +instances only [cursor_moveTo]
  split
  case isTrue => rfl
  case isFalse =>
    refine bind_checked ?_
    rintro ⟨key, c₁⟩
    change ((p.moveTo c₁).expect .colon >>= _) = _
    rw [expect_moveTo]
    refine bind_entered fun c₁ => ?_
    rw [h.assignment]
    refine bind_pair fun value c₁ => ?_
    have property := p.alloc_children (.property key value) (c.span.merge value.span) c₁
    dsimp only [enter, tree_moveTo]
    rw [(p.shows_put value).span_eq]
    exact listed p c₁ property h.properties

lemma parameters_succ :
    (p.moveTo c).parameters (d + 1) = (Grammar.parameters (d + 1) c).map p.enterAll := by
  rw [parameters, Grammar.parameters]
  dsimp +instances only [cursor_moveTo]
  split
  case isTrue => rfl
  case isFalse =>
    rw [bindingIdentifier_moveTo]
    exact bind_pair fun name c => listed p c rfl h.parameters

lemma functionRest_succ :
    (p.moveTo c).functionRest (d + 1) =
      (Grammar.functionRest (d + 1) c).map p.enterFunction := by
  rw [functionRest, Grammar.functionRest, expect_moveTo]
  refine bind_entered fun c => ?_
  rw [h.parameters]
  refine bind_pair fun params c => ?_
  dsimp only [enterAll, expect_moveTo]
  refine bind_entered fun c => ?_
  rw [h.block]
  exact bind_pair fun body c => rfl

lemma block_succ (ctx : Context) :
    (p.moveTo c).block (d + 1) ctx = (Grammar.block (d + 1) ctx c).map p.enter := by
  rw [block, Grammar.block, expect_moveTo]
  refine bind_entered fun c₁ => ?_
  rw [h.blockBody]
  refine bind_pair fun body c₁ => ?_
  exact congrArg Except.ok (p.alloc_children (.blockStatement body) _ c₁.advance)

lemma blockBody_succ (ctx : Context) :
    (p.moveTo c).blockBody (d + 1) ctx = (Grammar.blockBody (d + 1) ctx c).map p.enterAll := by
  rw [blockBody, Grammar.blockBody]
  dsimp +instances only [cursor_moveTo]
  split
  case isTrue => rfl
  case isFalse =>
    split
    case isTrue => rfl
    case isFalse =>
      rw [h.statement]
      refine bind_pair fun first c => ?_
      dsimp only [enter]
      rw [h.blockBody]
      exact bind_pair fun rest c => rfl

lemma parenthesized_succ :
    (p.moveTo c).parenthesized (d + 1) = (Grammar.parenthesized (d + 1) c).map p.enter := by
  rw [parenthesized, Grammar.parenthesized, expect_moveTo]
  refine bind_entered fun c => ?_
  rw [h.assignment]
  refine bind_pair fun inner c => ?_
  dsimp only [enter, expect_moveTo]
  exact bind_entered fun c => rfl

lemma optional_succ (closer : Punct) :
    (p.moveTo c).optional (d + 1) closer =
      (Grammar.optional (d + 1) closer c).map p.enterOption := by
  rw [optional, Grammar.optional]
  dsimp +instances only [cursor_moveTo]
  split
  case isTrue => rfl
  case isFalse =>
    rw [h.assignment]
    exact bind_pair fun inner c => rfl

lemma declaration_succ (kind : VarKind) (terminated : Bool) :
    (p.moveTo c).declaration (d + 1) kind terminated =
      (Grammar.declaration (d + 1) kind terminated c).map p.enter := by
  rw [declaration, Grammar.declaration]
  dsimp only [cursor_moveTo, advance_moveTo]
  rw [h.declarators]
  refine bind_pair fun names c₁ => ?_
  dsimp only [enterAll, endStatement_moveTo]
  cases terminated with
  | true =>
    exact bind_entered fun c₁ =>
      congrArg Except.ok (p.alloc_children (.variableDeclaration kind names) _ c₁)
  | false => exact congrArg Except.ok (p.alloc_children (.variableDeclaration kind names) _ c₁)

lemma declarators_succ :
    (p.moveTo c).declarators (d + 1) = (Grammar.declarators (d + 1) c).map p.enterAll := by
  rw [declarators, Grammar.declarators, bindingIdentifier_moveTo]
  refine bind_pair fun name c => ?_
  have shown := p.shows_put name
  dsimp +instances only [enter, cursor_moveTo, advance_moveTo]
  split
  case isTrue =>
    rw [h.assignment]
    refine bind_pair fun value c => ?_
    have declarator := p.alloc_children (.variableDeclarator name (some value))
      (c.spanFrom name.span) c
    dsimp only [enter]
    rw [ok_bind, ok_bind, spanFrom_moveTo, (shown.put value).span_eq]
    exact listed p c declarator h.declarators
  case isFalse =>
    have declarator := p.alloc_children (.variableDeclarator name none) (c.spanFrom name.span) c
    rw [ok_bind, ok_bind, spanFrom_moveTo, shown.span_eq]
    exact listed p c declarator h.declarators

lemma primary_succ : (p.moveTo c).primary (d + 1) = (Grammar.primary (d + 1) c).map p.enter := by
  have literal (x : Literal) := congrArg (Except.ok (ε := ParseError))
    (p.alloc_children (.literal x) c.span c.advance)
  rw [primary, Grammar.primary]
  dsimp only [cursor_moveTo, advance_moveTo]
  cases c.kind with
  | number x => exact literal (.number x)
  | string s => exact literal (.string s)
  | ident name =>
    exact bind_checked fun _ =>
      congrArg Except.ok (p.alloc_children (.identifier name) c.span c.advance)
  | keyword word =>
    cases word with
    | trueWord => exact literal (.bool true)
    | falseWord => exact literal (.bool false)
    | nullWord => exact literal .null
    | functionWord =>
      dsimp only [cursor_moveTo]
      cases c.advance.kind with
      | ident name =>
        have binder : (p.moveTo c.advance.advance).alloc (.identifier name) c.advance.span =
            p.enter (⟨c.advance.span, .identifier name⟩, c.advance.advance) :=
          p.alloc_children (.identifier name) _ _
        dsimp only [advance_moveTo]
        rw [binder]
        dsimp only [enter]
        rw [h.functionRest]
        exact bind_pair fun parts c₁ =>
          congrArg Except.ok (p.alloc_namedFunction _ parts.1 parts.2 (c₁.spanFrom c.span) c₁)
      | _ =>
        dsimp only
        rw [h.functionRest]
        exact bind_pair fun parts c₁ =>
          congrArg Except.ok (p.alloc_functionExpression parts.1 parts.2 (c₁.spanFrom c.span) c₁)
    | _ => rfl
  | punct mark =>
    cases mark with
    | leftParen =>
      dsimp only
      rw [h.assignment]
      refine bind_pair fun inner c => ?_
      dsimp only [enter, expect_moveTo]
      exact bind_entered fun c => bind_checked fun _ => rfl
    | leftBracket =>
      dsimp only
      rw [h.elements]
      refine bind_pair fun items c₁ => ?_
      dsimp only [enterAll, expect_moveTo]
      exact bind_entered fun c₁ =>
        congrArg Except.ok (p.alloc_children (.arrayExpression items) _ c₁)
    | leftBrace =>
      dsimp only
      rw [h.properties]
      refine bind_pair fun items c₁ => ?_
      dsimp only [enterAll, expect_moveTo]
      exact bind_entered fun c₁ =>
        congrArg Except.ok (p.alloc_children (.objectExpression items) _ c₁)
    | _ => rfl
  | _ => rfl

lemma forInit_succ :
    (p.moveTo c).forInit (d + 1) = (Grammar.forInit (d + 1) c).map p.enterOption := by
  have declared (kind : VarKind) : ((p.moveTo c).declaration d kind false >>= fun x =>
      .ok (some x.1, x.2)) = (Grammar.declaration d kind false c >>= fun x =>
        .ok (some x.1, x.2)).map p.enterOption := by
    rw [h.declaration]
    exact bind_entered fun _ => rfl
  rw [forInit, Grammar.forInit, cursor_moveTo]
  cases c.kind with
  | keyword word =>
    cases word with
    | varWord => exact declared .varKind
    | letWord => exact declared .letKind
    | constWord => exact declared .constKind
    | _ => exact h.optional .semicolon p c
  | _ => exact h.optional .semicolon p c

lemma forStatement_succ (ctx : Context) :
    (p.moveTo c).forStatement (d + 1) ctx =
      (Grammar.forStatement (d + 1) ctx c).map p.enter := by
  rw [forStatement, Grammar.forStatement]
  dsimp only [cursor_moveTo, advance_moveTo, expect_moveTo]
  refine bind_entered fun c₁ => ?_
  rw [h.forInit]
  refine bind_pair fun init c₁ => ?_
  dsimp +instances only [enterOption, cursor_moveTo, expect_moveTo]
  split
  case isTrue => rfl
  case isFalse =>
    refine bind_entered fun c₁ => ?_
    rw [h.optional]
    refine bind_pair fun test c₁ => ?_
    dsimp only [enterOption, expect_moveTo]
    refine bind_entered fun c₁ => ?_
    rw [h.optional]
    refine bind_pair fun update c₁ => ?_
    dsimp only [enterOption, expect_moveTo]
    refine bind_entered fun c₁ => ?_
    rw [h.statement]
    exact bind_pair fun body c₁ =>
      congrArg Except.ok (p.alloc_forStatement init test update body (c₁.spanFrom c.span) c₁)

lemma statement_succ (ctx : Context) :
    (p.moveTo c).statement (d + 1) ctx = (Grammar.statement (d + 1) ctx c).map p.enter := by
  have expression : ((p.moveTo c).assignment d >>= fun x => x.2.endStatement >>= fun p =>
      .ok (p.alloc (.expressionStatement x.1) (p.cursor.spanFrom c.span))) =
      (Grammar.assignment d c >>= fun x => Grammar.endStatement x.2 >>= fun c₁ =>
        .ok (⟨c₁.spanFrom c.span, .expressionStatement x.1⟩, c₁)).map p.enter := by
    rw [h.assignment]
    refine bind_pair fun expression c₁ => ?_
    dsimp only [enter, endStatement_moveTo]
    exact bind_entered fun c₁ =>
      congrArg Except.ok (p.alloc_children (.expressionStatement expression) _ c₁)
  rw [statement, Grammar.statement]
  dsimp +instances only [cursor_moveTo, advance_moveTo, endStatement_moveTo]
  cases c.kind with
  | keyword word =>
    cases word with
    | varWord => exact h.declaration .varKind true p c
    | letWord => exact h.declaration .letKind true p c
    | constWord => exact h.declaration .constKind true p c
    | functionWord =>
      dsimp only
      rw [bindingIdentifier_moveTo]
      refine bind_pair fun name c₁ => ?_
      dsimp only [enter]
      rw [h.functionRest]
      exact bind_pair fun parts c₁ => congrArg Except.ok
        (p.alloc_functionDeclaration name parts.1 parts.2 (c₁.spanFrom c.span) c₁)
    | ifWord =>
      dsimp only
      rw [h.parenthesized]
      refine bind_pair fun test c₁ => ?_
      dsimp only [enter]
      rw [h.statement]
      refine bind_pair fun consequent c₁ => ?_
      dsimp +instances only [enter, cursor_moveTo, advance_moveTo]
      split
      case isTrue =>
        rw [h.statement]
        exact bind_pair fun alternate c₁ => congrArg Except.ok
          (p.alloc_children (.ifStatement test consequent (some alternate)) _ c₁)
      case isFalse =>
        exact congrArg Except.ok (p.alloc_children (.ifStatement test consequent none) _ c₁)
    | forWord => exact h.forStatement ctx p c
    | whileWord =>
      dsimp only
      rw [h.parenthesized]
      refine bind_pair fun test c₁ => ?_
      dsimp only [enter]
      rw [h.statement]
      exact bind_pair fun body c₁ =>
        congrArg Except.ok (p.alloc_children (.whileStatement test body) _ c₁)
    | returnWord =>
      dsimp only
      split
      case isTrue => rfl
      case isFalse =>
        split
        case isTrue =>
          rw [ok_bind, ok_bind, endStatement_moveTo]
          exact bind_entered fun c₁ =>
            congrArg Except.ok (p.alloc_returnStatement none (c₁.spanFrom c.span) c₁)
        case isFalse =>
          rw [h.optional]
          refine bind_pair fun argument c₁ => ?_
          dsimp only [enterOption, endStatement_moveTo]
          exact bind_entered fun c₁ =>
            congrArg Except.ok (p.alloc_returnStatement argument (c₁.spanFrom c.span) c₁)
    | throwWord =>
      dsimp +instances only [cursor_moveTo]
      split
      case isTrue => rfl
      case isFalse =>
        rw [h.assignment]
        refine bind_pair fun argument c₁ => ?_
        dsimp only [enter, endStatement_moveTo]
        exact bind_entered fun c₁ =>
          congrArg Except.ok (p.alloc_children (.throwStatement argument) _ c₁)
    | breakWord =>
      dsimp only
      split
      case isTrue => rfl
      case isFalse =>
        exact bind_entered fun c₁ => congrArg Except.ok (p.alloc_children .breakStatement _ c₁)
    | continueWord =>
      dsimp only
      split
      case isTrue => rfl
      case isFalse =>
        exact bind_entered fun c₁ => congrArg Except.ok (p.alloc_children .continueStatement _ c₁)
    | debuggerWord =>
      exact bind_entered fun c₁ => congrArg Except.ok (p.alloc_children .debuggerStatement _ c₁)
    | _ => exact expression
  | punct mark =>
    cases mark with
    | leftBrace => exact h.block ctx p c
    | semicolon =>
      exact congrArg Except.ok (p.alloc_children .emptyStatement c.span c.advance)
    | _ => exact expression
  | reserved word => rfl
  | _ => exact expression

omit h

theorem allocates (d : Nat) : Allocates d := by
  induction d with
  | zero => constructor <;> intros <;> rfl
  | succ d h =>
    exact {
      assignment := fun p c => assignment_succ p c h
      conditional := fun p c => conditional_succ p c h
      operators := fun level p c => operators_succ p c h level
      operatorTail := fun level left p c => operatorTail_succ p c h level left
      unary := fun p c => unary_succ p c h
      postfixed := fun p c => postfixed_succ p c h
      accesses := fun calls callee p c => accesses_succ p c h calls callee
      construction := fun p c => construction_succ p c h
      elements := fun closer p c => elements_succ p c h closer
      properties := fun p c => properties_succ p c h
      primary := fun p c => primary_succ p c h
      parameters := fun p c => parameters_succ p c h
      functionRest := fun p c => functionRest_succ p c h
      block := fun ctx p c => block_succ p c h ctx
      blockBody := fun ctx p c => blockBody_succ p c h ctx
      declarators := fun p c => declarators_succ p c h
      declaration := fun kind terminated p c => declaration_succ p c h kind terminated
      parenthesized := fun p c => parenthesized_succ p c h
      optional := fun closer p c => optional_succ p c h closer
      forInit := fun p c => forInit_succ p c h
      forStatement := fun ctx p c => forStatement_succ p c h ctx
      statement := fun ctx p c => statement_succ p c h ctx }

/-- The statements of a program and their nodes. -/
theorem programBody_moveTo (d : Nat) (p : Parser) (c : Cursor) :
    (p.moveTo c).programBody d = (Grammar.programBody d c).map p.enterAll := by
  induction d generalizing p c with
  | zero => rfl
  | succ d ih =>
    rw [programBody, Grammar.programBody]
    dsimp +instances only [cursor_moveTo]
    split
    case isTrue => rfl
    case isFalse =>
      rw [(allocates d).statement]
      refine bind_pair fun first c => ?_
      dsimp only [enter]
      rw [ih]
      exact bind_pair fun rest c => rfl

lemma grown_enterAll (p : Parser) (qs : List Phrase) (c : Cursor) :
    Phrase.Grown p.tree.nodes (p.enterAll (qs, c)).2.tree.nodes (p.enterAll (qs, c)).1 :=
  Phrase.grown_numberAll (fun q _ => q.grown_number) p.tree.nodes

/-- A statement takes every node that has been allocated for it, each once, and leaves its own. -/
theorem statement_grown {d : Nat} {ctx : Context} {p p' : Parser} {id : NodeId}
    (h : p.statement d ctx = .ok (id, p')) : Phrase.Grown p.tree.nodes p'.tree.nodes [id] := by
  have read : p.statement d ctx = (Grammar.statement d ctx p.cursor).map p.enter :=
    (allocates d).statement ctx p p.cursor
  rw [read] at h
  cases found : Grammar.statement d ctx p.cursor with
  | error e => rw [found] at h; cases h
  | ok r =>
    rw [found] at h
    cases h
    exact p.grown_enterAll [r.1] r.2

/-- Between them the statements of a program take every node but their own. -/
theorem programBody_grown {d : Nat} {p p' : Parser} {ids : List NodeId}
    (h : p.programBody d = .ok (ids, p')) : Phrase.Grown p.tree.nodes p'.tree.nodes ids := by
  induction d generalizing p p' ids with
  | zero => cases h
  | succ d ih =>
    rw [programBody] at h
    split at h
    case isTrue => cases h; exact .refl p.tree.nodes
    case isFalse =>
      obtain ⟨⟨first, p₁⟩, hfirst, h⟩ := Grammar.bind_eq_ok.mp h
      obtain ⟨⟨rest, p₂⟩, hrest, h⟩ := Grammar.bind_eq_ok.mp h
      cases h
      exact (statement_grown hfirst).trans (ih hrest)

/-- The node of a program takes those of its statements, so in the tree that the parser gives every
node but the last is a child once, and the walk down from the last visits them all by number. -/
theorem program_grown {size : Nat} {tokens : List Token} {sourceType : SourceType}
    {table? : Option LineTable} {t : Tree}
    (h : (start tokens sourceType table?).program size = .ok t) :
    ∃ (t₀ : Tree) (n : Nat), t₀.size = n + 1 ∧ t = t₀.link n ∧
      Phrase.Grown #[] t₀.nodes [n] := by
  obtain ⟨⟨body, p⟩, hbody, h⟩ := Grammar.bind_eq_ok.mp h
  cases h
  let root : Node := .fresh (.program body) ⟨0, size⟩ (p.locate ⟨0, size⟩)
  have grown : Phrase.Grown #[] (p.tree.nodes.push root) [p.tree.size] :=
    (programBody_grown hbody).push rfl ⟨rfl, rfl⟩
  exact ⟨(p.tree.alloc root).2, p.tree.size, Array.size_push root, rfl, grown⟩

lemma program_start (size : Nat) (tokens : List Token) (sourceType : SourceType)
    (table? : Option LineTable) :
    (start tokens sourceType table?).program size =
      (Grammar.program size tokens).map (Tree.ofPhrase table? sourceType) := by
  have body : (start tokens sourceType table?).programBody (depthFor tokens.length) =
      (Grammar.programBody (depthFor tokens.length) (.start tokens)).map
        (start tokens sourceType table?).enterAll :=
    programBody_moveTo _ (start tokens sourceType table?) (.start tokens)
  have start_cursor : (start tokens sourceType table?).cursor = .start tokens := rfl
  have start_tokens : (Cursor.start tokens).tokens = tokens := rfl
  rw [program, Grammar.program, start_cursor, start_tokens, body]
  refine bind_pair fun body c => ?_
  have root := (start tokens sourceType table?).alloc_children (.program body) ⟨0, size⟩ c
  exact congrArg (fun x => Except.ok (x.2.tree.link x.1)) root

end Parser

/-- The tree of a text is that of its phrase. -/
theorem Tree.parse_eq (text : String) (options : ParseOptions) :
    Tree.parse text options = (Phrase.parse text).map
      (Tree.ofPhrase (if options.locations then some (.ofText text) else none)
        options.sourceType) := by
  rw [Tree.parse, Phrase.parse]
  cases Token.ofText text with
  | error e => rfl
  | ok tokens => exact Parser.program_start ..

lemma Tree.parse_eq_ok {text : String} {options : ParseOptions} {t : Tree} :
    Tree.parse text options = .ok t ↔ ∃ p, Phrase.parse text = .ok p ∧
      Tree.ofPhrase (if options.locations then some (.ofText text) else none) options.sourceType p =
        t := by
  rw [Tree.parse_eq]
  cases Phrase.parse text with
  | error e => simp [Except.map]
  | ok p => simp [Except.map]

lemma Tree.grown_of_parse {text : String} {options : ParseOptions} {t : Tree}
    (h : Tree.parse text options = .ok t) :
    ∃ (t₀ : Tree) (n : Nat), t₀.size = n + 1 ∧ t = t₀.link n ∧
      Phrase.Grown #[] t₀.nodes [n] := by
  rw [Tree.parse] at h
  cases hlex : Token.ofText text with
  | error e => rw [hlex] at h; cases h
  | ok tokens =>
    rw [hlex] at h
    exact Parser.program_grown h

lemma Tree.parse_of_isSome {text : String} (h : (Tree.parse text).toOption.isSome = true) :
    Tree.parse text = .ok ((Tree.parse text).toOption.getD default) := by
  cases parsed : Tree.parse text with
  | error err => simp [parsed, Except.toOption] at h
  | ok t => rfl

end ScriptDebugger
