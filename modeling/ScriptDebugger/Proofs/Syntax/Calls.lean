import ScriptDebugger.Proofs.Syntax.Depth

/-!
# Calls of the grammar functions

`Calls g c g' c'` says that the search for goal `g` at cursor `c` comes to search for
`g'` at `c'`, whether the search is going to succeed or not. A chain of calls
consumes tokens or passes on goals of less weight, so it ends (`wellFounded_calls`),
and no search gives up for its depth if that allows a few calls for each token: the
answer is the same within every greater depth (`settled_of_enough`).
-/

namespace ScriptDebugger.Grammar

open Cursor

/-- What a chain of accesses begins with: a construction where its word is at hand. -/
def Goal.headAt (c : Cursor) : Goal :=
  if c.atKeyword? .newWord then .construction else .primary

/-- One search comes to another; what lies between them has been found. -/
inductive Calls : Goal → Cursor → Goal → Cursor → Prop
  /- Expressions. -/
  | assignment_left {c} : Calls .assignment c .conditional c
  | assignment_right {d c l c₁ o} (left : Derives d .conditional c (.one l) c₁)
      (op : assignOp? c₁.kind = some o) : Calls .assignment c .assignment c₁.advance
  | conditional_test {c} : Calls .conditional c (.operators 1) c
  | conditional_consequent {d c t c₁} (test : Derives d (.operators 1) c (.one t) c₁)
      (question : c₁.at? .question = true) : Calls .conditional c .assignment c₁.advance
  | conditional_alternate {d c t c₁ a c₂} (test : Derives d (.operators 1) c (.one t) c₁)
      (question : c₁.at? .question = true)
      (consequent : Derives d .assignment c₁.advance (.one a) c₂)
      (colon : c₂.at? .colon = true) : Calls .conditional c .assignment c₂.advance
  | operators_left {n c} : Calls (.operators n) c .unary c
  | operators_tail {d n c l c₁} (left : Derives d .unary c (.one l) c₁) :
      Calls (.operators n) c (.operatorTail n l) c₁
  | operatorTail_right {n l c o} (op : infix? c.kind = some o) (binds : ¬ o.level < n) :
      Calls (.operatorTail n l) c (.operators (o.level + 1)) c.advance
  | operatorTail_again {d n l c o r c₁} (op : infix? c.kind = some o) (binds : ¬ o.level < n)
      (right : Derives d (.operators (o.level + 1)) c.advance (.one r) c₁) :
      Calls (.operatorTail n l) c (.operatorTail n (o.node l r)) c₁
  | unary {c o} (op : unaryOp? c.kind = some o) : Calls .unary c .unary c.advance
  | unary_update {c o} (notUnary : unaryOp? c.kind = none) (op : updateOp? c.kind = some o) :
      Calls .unary c .unary c.advance
  | unary_postfixed {c} (notUnary : unaryOp? c.kind = none) (notUpdate : updateOp? c.kind = none) :
      Calls .unary c .postfixed c
  | postfixed_head {c} : Calls .postfixed c (.headAt c) c
  | postfixed_accesses {d c f c₁} (head : Derives d .head c (.one f) c₁) :
      Calls .postfixed c (.accesses true f) c₁
  | accesses_arguments {calls f c} (call : (calls && c.at? .leftParen) = true) :
      Calls (.accesses calls f) c (.elements .rightParen) c.advance
  | accesses_call {d calls f c as c₁} (call : (calls && c.at? .leftParen) = true)
      (arguments : Derives d (.elements .rightParen) c.advance (.many as) c₁)
      (close : c₁.at? .rightParen = true) :
      Calls (.accesses calls f) c
        (.accesses calls ⟨c₁.advance.spanFrom f.span, .callExpression f as⟩) c₁.advance
  | accesses_dot {calls f c n c₁} (call : (calls && c.at? .leftParen) = false)
      (dot : c.at? .dot = true) (name : propertyName c.advance = .ok (n, c₁)) :
      Calls (.accesses calls f) c
        (.accesses calls ⟨c₁.spanFrom f.span, .memberExpression f n false⟩) c₁
  | accesses_key {calls f c} (call : (calls && c.at? .leftParen) = false)
      (dot : c.at? .dot = false) (bracket : c.at? .leftBracket = true) :
      Calls (.accesses calls f) c .assignment c.advance
  | accesses_bracket {d calls f c k c₁} (call : (calls && c.at? .leftParen) = false)
      (dot : c.at? .dot = false) (bracket : c.at? .leftBracket = true)
      (key : Derives d .assignment c.advance (.one k) c₁) (close : c₁.at? .rightBracket = true) :
      Calls (.accesses calls f) c
        (.accesses calls ⟨c₁.advance.spanFrom f.span, .memberExpression f k true⟩) c₁.advance
  | construction_head {c} : Calls .construction c (.headAt c.advance) c.advance
  | construction_accesses {d c f c₁} (head : Derives d .head c.advance (.one f) c₁) :
      Calls .construction c (.accesses false f) c₁
  | construction_arguments {d c f c₁ g c₂} (head : Derives d .head c.advance (.one f) c₁)
      (chain : Derives d (.accesses false f) c₁ (.one g) c₂) (paren : c₂.at? .leftParen = true) :
      Calls .construction c (.elements .rightParen) c₂.advance
  | elements_first {closer c} (close : c.at? closer = false) :
      Calls (.elements closer) c .assignment c
  | elements_rest {d closer c p c₁} (close : c.at? closer = false)
      (first : Derives d .assignment c (.one p) c₁) (comma : c₁.at? .comma = true) :
      Calls (.elements closer) c (.elements closer) c₁.advance
  | properties_value {c k c₁} (close : c.at? .rightBrace = false)
      (key : propertyKey c = .ok (k, c₁)) (colon : c₁.at? .colon = true) :
      Calls .properties c .assignment c₁.advance
  | properties_rest {d c k c₁ p c₂} (close : c.at? .rightBrace = false)
      (key : propertyKey c = .ok (k, c₁)) (colon : c₁.at? .colon = true)
      (value : Derives d .assignment c₁.advance (.one p) c₂) (comma : c₂.at? .comma = true) :
      Calls .properties c .properties c₂.advance
  | primary_paren {c} (token : c.kind = .punct .leftParen) : Calls .primary c .assignment c.advance
  | primary_array {c} (token : c.kind = .punct .leftBracket) :
      Calls .primary c (.elements .rightBracket) c.advance
  | primary_object {c} (token : c.kind = .punct .leftBrace) :
      Calls .primary c .properties c.advance
  | primary_function {c} (token : c.kind = .keyword .functionWord)
      (anonymous : ∀ name, c.advance.kind ≠ .ident name) :
      Calls .primary c .functionRest c.advance
  | primary_namedFunction {c name} (token : c.kind = .keyword .functionWord)
      (named : c.advance.kind = .ident name) : Calls .primary c .functionRest c.advance.advance
  /- Functions. -/
  | parameters_rest {c p c₁} (close : c.at? .rightParen = false)
      (first : bindingIdentifier c = .ok (p, c₁)) (comma : c₁.at? .comma = true) :
      Calls .parameters c .parameters c₁.advance
  | functionRest_parameters {c} (paren : c.at? .leftParen = true) :
      Calls .functionRest c .parameters c.advance
  | functionRest_block {d c ps c₁} (paren : c.at? .leftParen = true)
      (params : Derives d .parameters c.advance (.many ps) c₁)
      (close : c₁.at? .rightParen = true) :
      Calls .functionRest c (.block ⟨true, false⟩) c₁.advance
  /- Statements. -/
  | block {ctx c} (brace : c.at? .leftBrace = true) :
    Calls (.block ctx) c (.blockBody ctx) c.advance
  | blockBody_first {ctx c} (close : c.at? .rightBrace = false) (more : c.atEnd = false) :
      Calls (.blockBody ctx) c (.statement ctx) c
  | blockBody_rest {d ctx c p c₁} (close : c.at? .rightBrace = false) (more : c.atEnd = false)
      (first : Derives d (.statement ctx) c (.one p) c₁) :
      Calls (.blockBody ctx) c (.blockBody ctx) c₁
  | declarators_value {c n c₁} (name : bindingIdentifier c = .ok (n, c₁))
      (assign : c₁.at? .assign = true) : Calls .declarators c .assignment c₁.advance
  | declarators_rest {d c n c₁ o c₂} (name : bindingIdentifier c = .ok (n, c₁))
      (init : Derives d .initializer c₁ (.maybe o) c₂) (comma : c₂.at? .comma = true) :
      Calls .declarators c .declarators c₂.advance
  | declaration {kind terminated c} : Calls (.declaration kind terminated) c .declarators c.advance
  | parenthesized {c} (paren : c.at? .leftParen = true) :
      Calls .parenthesized c .assignment c.advance
  | optional {closer c} (close : c.at? closer = false) : Calls (.optional closer) c .assignment c
  | forInit_declaration {c kind} (word : varKind? c.kind = some kind) :
      Calls .forInit c (.declaration kind false) c
  | forInit {c} (word : varKind? c.kind = none) : Calls .forInit c (.optional .semicolon) c
  | forStatement_init {ctx c} (paren : c.advance.at? .leftParen = true) :
      Calls (.forStatement ctx) c .forInit c.advance.advance
  | forStatement_test {d ctx c i c₁} (paren : c.advance.at? .leftParen = true)
      (init : Derives d .forInit c.advance.advance (.maybe i) c₁)
      (first : c₁.at? .semicolon = true) :
      Calls (.forStatement ctx) c (.optional .semicolon) c₁.advance
  | forStatement_update {d ctx c i c₁ t c₂} (paren : c.advance.at? .leftParen = true)
      (init : Derives d .forInit c.advance.advance (.maybe i) c₁)
      (first : c₁.at? .semicolon = true)
      (test : Derives d (.optional .semicolon) c₁.advance (.maybe t) c₂)
      (second : c₂.at? .semicolon = true) :
      Calls (.forStatement ctx) c (.optional .rightParen) c₂.advance
  | forStatement_body {d ctx c i c₁ t c₂ u c₃} (paren : c.advance.at? .leftParen = true)
      (init : Derives d .forInit c.advance.advance (.maybe i) c₁)
      (first : c₁.at? .semicolon = true)
      (test : Derives d (.optional .semicolon) c₁.advance (.maybe t) c₂)
      (second : c₂.at? .semicolon = true)
      (update : Derives d (.optional .rightParen) c₂.advance (.maybe u) c₃)
      (close : c₃.at? .rightParen = true) :
      Calls (.forStatement ctx) c (.statement { ctx with inLoop := true }) c₃.advance
  | statement_block {ctx c} (token : c.kind = .punct .leftBrace) :
      Calls (.statement ctx) c (.block ctx) c
  | statement_declaration {ctx c kind} (token : varKind? c.kind = some kind) :
      Calls (.statement ctx) c (.declaration kind true) c
  | statement_function {ctx c n c₁} (token : c.kind = .keyword .functionWord)
      (name : bindingIdentifier c.advance = .ok (n, c₁)) :
      Calls (.statement ctx) c .functionRest c₁
  | statement_if {ctx c} (token : c.kind = .keyword .ifWord) :
      Calls (.statement ctx) c .parenthesized c.advance
  | statement_consequent {d ctx c t c₁} (token : c.kind = .keyword .ifWord)
      (test : Derives d .parenthesized c.advance (.one t) c₁) :
      Calls (.statement ctx) c (.statement ctx) c₁
  | statement_alternate {d ctx c t c₁ s c₂} (token : c.kind = .keyword .ifWord)
      (test : Derives d .parenthesized c.advance (.one t) c₁)
      (consequent : Derives d (.statement ctx) c₁ (.one s) c₂)
      (else_ : c₂.atKeyword? .elseWord = true) :
      Calls (.statement ctx) c (.statement ctx) c₂.advance
  | statement_for {ctx c} (token : c.kind = .keyword .forWord) :
      Calls (.statement ctx) c (.forStatement ctx) c
  | statement_while {ctx c} (token : c.kind = .keyword .whileWord) :
      Calls (.statement ctx) c .parenthesized c.advance
  | statement_body {d ctx c t c₁} (token : c.kind = .keyword .whileWord)
      (test : Derives d .parenthesized c.advance (.one t) c₁) :
      Calls (.statement ctx) c (.statement { ctx with inLoop := true }) c₁
  | statement_return {ctx c} (token : c.kind = .keyword .returnWord)
      (legal : ctx.inFunction = true) (ends : mayEnd c.advance = false) :
      Calls (.statement ctx) c (.optional .semicolon) c.advance
  | statement_throw {ctx c} (token : c.kind = .keyword .throwWord)
      (sameLine : c.advance.newlineBefore = false) :
      Calls (.statement ctx) c .assignment c.advance
  | statement_expression {ctx c} (token : beginsExpression c.kind = true) :
      Calls (.statement ctx) c .assignment c
  | programBody_first {c} (more : c.atEnd = false) :
      Calls .programBody c (.statement ⟨false, false⟩) c
  | programBody_rest {d c p c₁} (more : c.atEnd = false)
      (first : Derives d (.statement ⟨false, false⟩) c (.one p) c₁) :
      Calls .programBody c .programBody c₁

/-- The goals that grammar functions are called for; a construction only where its word is at
hand. -/
def Goal.Sought (c : Cursor) : Goal → Prop
  | .construction => c.atKeyword? .newWord = true
  | .head | .initializer | .result => False
  | _ => True

variable {d d' : Nat} {g g' : Goal} {c c' : Cursor}

lemma sought_headAt (c : Cursor) : (Goal.headAt c).Sought c := by
  rw [Goal.headAt]
  split
  case isTrue word => exact word
  case isFalse => trivial

lemma Calls.sought (h : Calls g c g' c') : g'.Sought c' := by
  cases h
  case postfixed_head | construction_head => exact sought_headAt _
  all_goals trivial

lemma weight_headAt (c : Cursor) : (Goal.headAt c).weight = 1 := by
  rw [Goal.headAt]
  split <;> rfl

/-- What a chain of calls uses up. -/
def Goal.measure (g : Goal) (c : Cursor) : Nat := 16 * c.left + g.weight

attribute [local grind →] left_of_at? left_of_atKeyword? left_of_punct left_of_keyword left_of_ident
  left_of_bindingIdentifier left_of_propertyName left_of_propertyKey Derives.left_le

/-- A call passes on a goal of less weight, or tokens have been consumed by then. -/
lemma Calls.measure_lt (h : Calls g c g' c') (sought : g.Sought c) :
    g'.measure c' < g.measure c := by
  cases h with
  | postfixed_head =>
    rw [Goal.measure, Goal.measure, weight_headAt]
    simp [Goal.weight]
  | construction_head =>
    have := left_of_atKeyword? sought
    rw [Goal.measure, Goal.measure, weight_headAt]
    simp only [Goal.weight]
    omega
  | assignment_right left op =>
    have := left.left_le
    have := left_of_some rfl op
    simp only [Goal.measure, Goal.weight]
    omega
  | operatorTail_right op binds =>
    have := left_of_some rfl op
    simp only [Goal.measure, Goal.weight]
    omega
  | operatorTail_again op binds right =>
    have := left_of_some rfl op
    have := right.left_le
    simp only [Goal.measure, Goal.weight]
    omega
  | unary op =>
    have := left_of_some rfl op
    simp only [Goal.measure, Goal.weight]
    omega
  | unary_update notUnary op =>
    have := left_of_some rfl op
    simp only [Goal.measure, Goal.weight]
    omega
  | blockBody_rest close more first =>
    have := first.left_lt rfl
    simp only [Goal.measure, Goal.weight]
    omega
  | programBody_rest more first =>
    have := first.left_lt rfl
    simp only [Goal.measure, Goal.weight]
    omega
  | _ =>
    simp only [Goal.measure, Goal.weight, Goal.Sought] at *
    grind [left_advance_le]

/-- No chain of calls goes on forever. -/
theorem wellFounded_calls :
    WellFounded fun s s' : Goal × Cursor => s'.1.Sought s'.2 ∧ Calls s'.1 s'.2 s.1 s.2 :=
  Subrelation.wf (fun h => h.2.measure_lt h.1) (measure fun s : Goal × Cursor => s.1.measure s.2).wf

/-- The same answer twice, and not that the search went too deep. -/
def Settled {α : Type} (r r' : Result α) : Prop :=
  r = r' ∧ ∀ e, r = .error e → e.fault ≠ .tooDeep

section Settled

variable {α β : Type}

lemma Settled.ok (a : α) : Settled (.ok a) (.ok a) := ⟨rfl, fun _ h => by cases h⟩

lemma Settled.error {e : ParseError} (h : e.fault ≠ .tooDeep) :
    Settled (.error e : Result α) (.error e) :=
  ⟨rfl, fun _ same => by cases same; exact h⟩

lemma Settled.bind {r r' : Result α} {f f' : α → Result β} (h : Settled r r')
    (next : ∀ a, r = .ok a → Settled (f a) (f' a)) : Settled (r >>= f) (r' >>= f') := by
  obtain ⟨rfl, shallow⟩ := h
  cases r with
  | error e => exact .error (shallow e rfl)
  | ok a => exact next a rfl

/-- What was not expected is a reason of its own. -/
lemma Settled.unexpected {c : Cursor} {x : Expected} :
    Settled (.error (c.unexpected x) : Result α) (.error (c.unexpected x)) :=
  .error (by simp [Cursor.unexpected])

lemma Settled.bind_pair {r r' : Result (α × Cursor)} {f f' : α × Cursor → Result β}
    (h : Settled r r') (next : ∀ a c, r = .ok (a, c) → Settled (f (a, c)) (f' (a, c))) :
    Settled (r >>= f) (r' >>= f') :=
  h.bind fun x => next x.1 x.2

lemma settled_yields {form : α → Yield} (injective : Function.Injective form)
    {r r' : Result (α × Cursor)} : Settled (yields form r) (yields form r') ↔ Settled r r' := by
  cases r with
  | error e =>
    cases r' with
    | error e' => simp [Settled, yields, Except.map]
    | ok x => simp [Settled, yields, Except.map]
  | ok x =>
    cases r' with
    | error e' => simp [Settled, yields, Except.map]
    | ok x' => simp [Settled, yields, Except.map, injective.eq_iff, Prod.ext_iff]

lemma settled_one {r r' : Result (Phrase × Cursor)} :
    Settled (yields .one r) (yields .one r') ↔ Settled r r' :=
  settled_yields fun _ _ => Yield.one.inj

lemma settled_many {r r' : Result (List Phrase × Cursor)} :
    Settled (yields .many r) (yields .many r') ↔ Settled r r' :=
  settled_yields fun _ _ => Yield.many.inj

lemma settled_maybe {r r' : Result (Option Phrase × Cursor)} :
    Settled (yields .maybe r) (yields .maybe r') ↔ Settled r r' :=
  settled_yields fun _ _ => Yield.maybe.inj

lemma settled_function {r r' : Result ((List Phrase × Phrase) × Cursor)} :
    Settled (yields (fun x => .function x.1 x.2) r) (yields (fun x => .function x.1 x.2) r') ↔
      Settled r r' :=
  settled_yields fun _ _ h => Prod.ext (Yield.function.inj h).1 (Yield.function.inj h).2

end Settled

lemma settled_expect (c : Cursor) (p : Punct) : Settled (c.expect p) (c.expect p) := by
  rw [Cursor.expect]
  split
  · exact .ok _
  · exact .unexpected

lemma settled_checkTarget (p : Phrase) : Settled (checkTarget p) (checkTarget p) := by
  rw [checkTarget]
  split
  · exact .ok _
  · exact .ok _
  · exact .error (by simp)

lemma settled_bindingIdentifier (c : Cursor) :
    Settled (bindingIdentifier c) (bindingIdentifier c) := by
  rw [bindingIdentifier]
  split
  · exact .ok _
  · exact .unexpected

lemma settled_propertyName (c : Cursor) : Settled (propertyName c) (propertyName c) := by
  rw [propertyName]
  split
  · exact .ok _
  · exact .ok _
  · exact .unexpected

lemma settled_propertyKey (c : Cursor) : Settled (propertyKey c) (propertyKey c) := by
  rw [propertyKey]
  split
  · exact .ok _
  · exact .ok _
  · exact .ok _
  · exact .ok _
  · exact .unexpected

lemma settled_refuseArrow (c : Cursor) : Settled (refuseArrow c) (refuseArrow c) := by
  rw [refuseArrow]
  split
  · exact .error (by simp)
  · exact .ok _

lemma settled_endStatement (c : Cursor) : Settled (endStatement c) (endStatement c) := by
  rw [endStatement]
  split
  · exact .ok _
  · split
    · exact .ok _
    · exact (settled_refuseArrow c).bind fun _ _ => .unexpected

/-- Whatever the search for `g` at `c` comes to has a settled answer. -/
def CallsSettled (d d' : Nat) (g : Goal) (c : Cursor) : Prop :=
  ∀ g' c', Calls g c g' c' → Settled (g'.run d c') (g'.run d' c')

section Functions

variable {α : Type}

/-- A search for one phrase, and what comes behind it. -/
lemma settled_bind_one {r r' : Result (Phrase × Cursor)} {f f' : Phrase × Cursor → Result α}
    (h : Settled (yields .one r) (yields .one r'))
    (next : ∀ p c, yields .one r = .ok (.one p, c) → Settled (f (p, c)) (f' (p, c))) :
    Settled (r >>= f) (r' >>= f') :=
  (settled_one.mp h).bind_pair fun p c found => next p c (yields_ok found)

lemma settled_bind_many {r r' : Result (List Phrase × Cursor)}
    {f f' : List Phrase × Cursor → Result α} (h : Settled (yields .many r) (yields .many r'))
    (next : ∀ ps c, yields .many r = .ok (.many ps, c) → Settled (f (ps, c)) (f' (ps, c))) :
    Settled (r >>= f) (r' >>= f') :=
  (settled_many.mp h).bind_pair fun ps c found => next ps c (yields_ok found)

lemma settled_bind_maybe {r r' : Result (Option Phrase × Cursor)}
    {f f' : Option Phrase × Cursor → Result α} (h : Settled (yields .maybe r) (yields .maybe r'))
    (next : ∀ o c, yields .maybe r = .ok (.maybe o, c) → Settled (f (o, c)) (f' (o, c))) :
    Settled (r >>= f) (r' >>= f') :=
  (settled_maybe.mp h).bind_pair fun o c found => next o c (yields_ok found)

lemma settled_bind_function {r r' : Result ((List Phrase × Phrase) × Cursor)}
    {f f' : (List Phrase × Phrase) × Cursor → Result α}
    (h : Settled (yields (fun x => .function x.1 x.2) r) (yields (fun x => .function x.1 x.2) r'))
    (next : ∀ ps b c, yields (fun x => .function x.1 x.2) r = .ok (.function ps b, c) →
      Settled (f ((ps, b), c)) (f' ((ps, b), c))) : Settled (r >>= f) (r' >>= f') :=
  (settled_function.mp h).bind_pair fun x c found => next x.1 x.2 c (yields_ok found)

lemma settled_bind_expect {p : Punct} {f f' : Cursor → Result α}
    (next : c.at? p = true → Settled (f c.advance) (f' c.advance)) :
    Settled (c.expect p >>= f) (c.expect p >>= f') := by
  refine (settled_expect c p).bind fun c₁ found => ?_
  obtain ⟨there, rfl⟩ := expect_eq_ok.mp found
  exact next there

lemma assignment_settled (ih : CallsSettled d d' .assignment c) :
    Settled (Grammar.assignment (d + 1) c) (Grammar.assignment (d' + 1) c) := by
  rw [Grammar.assignment, Grammar.assignment]
  refine settled_bind_one (ih _ _ .assignment_left) fun l c₁ left => ?_
  dsimp only
  cases op : assignOp? c₁.kind with
  | none => exact .ok _
  | some o =>
    refine (settled_checkTarget l).bind fun _ _ => ?_
    exact settled_bind_one (ih _ _ (.assignment_right (derives_iff.mpr left) op)) fun _ _ _ => .ok _

lemma conditional_settled (ih : CallsSettled d d' .conditional c) :
    Settled (Grammar.conditional (d + 1) c) (Grammar.conditional (d' + 1) c) := by
  rw [Grammar.conditional, Grammar.conditional]
  refine settled_bind_one (ih _ _ .conditional_test) fun t c₁ test => ?_
  dsimp only
  split
  case isTrue question =>
    refine settled_bind_one (ih _ _ (.conditional_consequent (derives_iff.mpr test) question))
      fun a c₂ consequent => settled_bind_expect fun colon => ?_
    exact settled_bind_one (ih _ _ (.conditional_alternate (derives_iff.mpr test) question
      (derives_iff.mpr consequent) colon)) fun _ _ _ => .ok _
  case isFalse => exact .ok _

lemma operators_settled {n : Nat} (ih : CallsSettled d d' (.operators n) c) :
    Settled (Grammar.operators (d + 1) n c) (Grammar.operators (d' + 1) n c) := by
  rw [Grammar.operators, Grammar.operators]
  refine settled_bind_one (ih _ _ .operators_left) fun l c₁ left => ?_
  exact settled_one.mp (ih _ _ (.operators_tail (derives_iff.mpr left)))

lemma operatorTail_settled {n : Nat} {l : Phrase} (ih : CallsSettled d d' (.operatorTail n l) c) :
    Settled (Grammar.operatorTail (d + 1) n l c) (Grammar.operatorTail (d' + 1) n l c) := by
  rw [Grammar.operatorTail, Grammar.operatorTail]
  cases op : infix? c.kind with
  | none => exact .ok _
  | some o =>
    dsimp only
    split
    case isTrue => exact .ok _
    case isFalse binds =>
      refine settled_bind_one (ih _ _ (.operatorTail_right op binds)) fun r c₁ right => ?_
      exact settled_one.mp (ih _ _ (.operatorTail_again op binds (derives_iff.mpr right)))

lemma unary_settled (ih : CallsSettled d d' .unary c) :
    Settled (Grammar.unary (d + 1) c) (Grammar.unary (d' + 1) c) := by
  rw [Grammar.unary, Grammar.unary]
  cases op : unaryOp? c.kind with
  | some o => exact settled_bind_one (ih _ _ (.unary op)) fun _ _ _ => .ok _
  | none =>
    cases update : updateOp? c.kind with
    | some o =>
      refine settled_bind_one (ih _ _ (.unary_update op update)) fun a _ _ => ?_
      exact (settled_checkTarget a).bind fun _ _ => .ok _
    | none => exact settled_one.mp (ih _ _ (.unary_postfixed op update))

/-- What a chain of accesses begins with, and what comes behind it. -/
lemma settled_bind_head {f f' : Phrase × Cursor → Result α}
    (h : Settled ((Goal.headAt c).run d c) ((Goal.headAt c).run d' c))
    (next : ∀ p c₁, Derives d .head c (.one p) c₁ → Settled (f (p, c₁)) (f' (p, c₁))) :
    Settled
      (if c.atKeyword? .newWord then Grammar.construction d c >>= f else Grammar.primary d c >>= f)
      (if c.atKeyword? .newWord then Grammar.construction d' c >>= f'
        else Grammar.primary d' c >>= f') := by
  cases word : c.atKeyword? .newWord with
  | true =>
    rw [Goal.headAt, if_pos word] at h
    exact settled_bind_one h fun p c₁ found =>
      next p c₁ (.head_construction word (derives_iff.mpr found))
  | false =>
    rw [Goal.headAt, if_neg (by simp [word])] at h
    exact settled_bind_one h fun p c₁ found =>
      next p c₁ (.head_primary word (derives_iff.mpr found))

lemma postfixed_settled (ih : CallsSettled d d' .postfixed c) :
    Settled (Grammar.postfixed (d + 1) c) (Grammar.postfixed (d' + 1) c) := by
  rw [Grammar.postfixed, Grammar.postfixed]
  refine settled_bind_head (ih _ _ .postfixed_head) fun f c₁ head => ?_
  refine settled_bind_one (ih _ _ (.postfixed_accesses head)) fun a c₂ _ => ?_
  dsimp only
  split
  case isTrue => exact .ok _
  case isFalse =>
    cases updateOp? c₂.kind with
    | none => exact .ok _
    | some o => exact (settled_checkTarget a).bind fun _ _ => .ok _

lemma accesses_settled {calls : Bool} {f : Phrase}
    (ih : CallsSettled d d' (.accesses calls f) c) :
    Settled (Grammar.accesses (d + 1) calls f c) (Grammar.accesses (d' + 1) calls f c) := by
  rw [Grammar.accesses, Grammar.accesses]
  cases call : calls && c.at? .leftParen with
  | true =>
    refine settled_bind_many (ih _ _ (.accesses_arguments call)) fun as c₁ arguments => ?_
    refine settled_bind_expect fun close => ?_
    exact settled_one.mp (ih _ _ (.accesses_call call (derives_iff.mpr arguments) close))
  | false =>
    cases dot : c.at? .dot with
    | true =>
      refine (settled_propertyName c.advance).bind_pair fun n c₁ name => ?_
      exact settled_one.mp (ih _ _ (.accesses_dot call dot name))
    | false =>
      cases bracket : c.at? .leftBracket with
      | true =>
        refine settled_bind_one (ih _ _ (.accesses_key call dot bracket)) fun k c₁ key => ?_
        refine settled_bind_expect fun close => ?_
        exact settled_one.mp
          (ih _ _ (.accesses_bracket call dot bracket (derives_iff.mpr key) close))
      | false => exact .ok _

lemma construction_settled (ih : CallsSettled d d' .construction c) :
    Settled (Grammar.construction (d + 1) c) (Grammar.construction (d' + 1) c) := by
  rw [Grammar.construction, Grammar.construction]
  refine settled_bind_head (ih _ _ .construction_head) fun f c₁ head => ?_
  refine settled_bind_one (ih _ _ (.construction_accesses head)) fun g c₂ chain => ?_
  dsimp only
  split
  case isTrue paren =>
    refine settled_bind_many (ih _ _ (.construction_arguments head (derives_iff.mpr chain) paren))
      fun _ _ _ => ?_
    exact settled_bind_expect fun _ => .ok _
  case isFalse => exact .ok _

lemma elements_settled {closer : Punct} (ih : CallsSettled d d' (.elements closer) c) :
    Settled (Grammar.elements (d + 1) closer c) (Grammar.elements (d' + 1) closer c) := by
  rw [Grammar.elements, Grammar.elements]
  cases close : c.at? closer with
  | true => exact .ok _
  | false =>
    refine settled_bind_one (ih _ _ (.elements_first close)) fun p c₁ first => ?_
    dsimp only
    split
    case isTrue comma =>
      exact settled_bind_many (ih _ _ (.elements_rest close (derives_iff.mpr first) comma))
        fun _ _ _ => .ok _
    case isFalse => exact .ok _

lemma properties_settled (ih : CallsSettled d d' .properties c) :
    Settled (Grammar.properties (d + 1) c) (Grammar.properties (d' + 1) c) := by
  rw [Grammar.properties, Grammar.properties]
  cases close : c.at? .rightBrace with
  | true => exact .ok _
  | false =>
    refine (settled_propertyKey c).bind_pair fun k c₁ key => settled_bind_expect fun colon => ?_
    refine settled_bind_one (ih _ _ (.properties_value close key colon)) fun p c₂ value => ?_
    dsimp only
    split
    case isTrue comma =>
      exact settled_bind_many
        (ih _ _ (.properties_rest close key colon (derives_iff.mpr value) comma)) fun _ _ _ => .ok _
    case isFalse => exact .ok _

lemma primary_settled (ih : CallsSettled d d' .primary c) :
    Settled (Grammar.primary (d + 1) c) (Grammar.primary (d' + 1) c) := by
  rw [Grammar.primary, Grammar.primary]
  split
  case h_6 => exact (settled_refuseArrow c.advance).bind fun _ _ => .ok _
  case h_7 token =>
    refine settled_bind_one (ih _ _ (.primary_paren token)) fun _ c₁ _ => ?_
    refine settled_bind_expect fun _ => ?_
    exact (settled_refuseArrow c₁.advance).bind fun _ _ => .ok _
  case h_8 token =>
    refine settled_bind_many (ih _ _ (.primary_array token)) fun _ _ _ => ?_
    exact settled_bind_expect fun _ => .ok _
  case h_9 token =>
    refine settled_bind_many (ih _ _ (.primary_object token)) fun _ _ _ => ?_
    exact settled_bind_expect fun _ => .ok _
  case h_10 token =>
    dsimp only
    split
    case h_1 named =>
      exact settled_bind_function (ih _ _ (.primary_namedFunction token named)) fun _ _ _ _ => .ok _
    case h_2 anonymous =>
      exact settled_bind_function (ih _ _ (.primary_function token anonymous)) fun _ _ _ _ => .ok _
  case h_11 => exact .error (by simp)
  case h_12 => exact .unexpected
  all_goals exact .ok _

lemma parameters_settled (ih : CallsSettled d d' .parameters c) :
    Settled (Grammar.parameters (d + 1) c) (Grammar.parameters (d' + 1) c) := by
  rw [Grammar.parameters, Grammar.parameters]
  cases close : c.at? .rightParen with
  | true => exact .ok _
  | false =>
    refine (settled_bindingIdentifier c).bind_pair fun p c₁ first => ?_
    dsimp only
    split
    case isTrue comma =>
      exact settled_bind_many (ih _ _ (.parameters_rest close first comma)) fun _ _ _ => .ok _
    case isFalse => exact .ok _

lemma functionRest_settled (ih : CallsSettled d d' .functionRest c) :
    Settled (Grammar.functionRest (d + 1) c) (Grammar.functionRest (d' + 1) c) := by
  rw [Grammar.functionRest, Grammar.functionRest]
  refine settled_bind_expect fun paren => ?_
  refine settled_bind_many (ih _ _ (.functionRest_parameters paren)) fun ps c₁ params => ?_
  refine settled_bind_expect fun close => ?_
  exact settled_bind_one (ih _ _ (.functionRest_block paren (derives_iff.mpr params) close))
    fun _ _ _ => .ok _

lemma block_settled {ctx : Context} (ih : CallsSettled d d' (.block ctx) c) :
    Settled (Grammar.block (d + 1) ctx c) (Grammar.block (d' + 1) ctx c) := by
  rw [Grammar.block, Grammar.block]
  refine settled_bind_expect fun brace => ?_
  exact settled_bind_many (ih _ _ (.block brace)) fun _ _ _ => .ok _

lemma blockBody_settled {ctx : Context} (ih : CallsSettled d d' (.blockBody ctx) c) :
    Settled (Grammar.blockBody (d + 1) ctx c) (Grammar.blockBody (d' + 1) ctx c) := by
  rw [Grammar.blockBody, Grammar.blockBody]
  cases close : c.at? .rightBrace with
  | true => exact .ok _
  | false =>
    cases more : c.atEnd with
    | true => exact .unexpected
    | false =>
      refine settled_bind_one (ih _ _ (.blockBody_first close more)) fun p c₁ first => ?_
      exact settled_bind_many (ih _ _ (.blockBody_rest close more (derives_iff.mpr first)))
        fun _ _ _ => .ok _

/-- What comes behind the value of a declarator, or behind its name if there is none. -/
lemma settled_of_initializer {c₁ c₂ : Cursor} {n : Phrase} {o : Option Phrase}
    (ih : CallsSettled d d' .declarators c) (name : bindingIdentifier c = .ok (n, c₁))
    (init : Derives d .initializer c₁ (.maybe o) c₂) (p : Phrase) :
    Settled
      (if c₂.at? .comma = true then do
        let (rest, c) ← Grammar.declarators d c₂.advance
        .ok (p :: rest, c)
      else .ok ([p], c₂))
      (if c₂.at? .comma = true then do
        let (rest, c) ← Grammar.declarators d' c₂.advance
        .ok (p :: rest, c)
      else .ok ([p], c₂)) := by
  split
  case isTrue comma =>
    exact settled_bind_many (ih _ _ (.declarators_rest name init comma)) fun _ _ _ => .ok _
  case isFalse => exact .ok _

lemma declarators_settled (ih : CallsSettled d d' .declarators c) :
    Settled (Grammar.declarators (d + 1) c) (Grammar.declarators (d' + 1) c) := by
  rw [Grammar.declarators, Grammar.declarators]
  refine (settled_bindingIdentifier c).bind_pair fun n c₁ name => ?_
  dsimp only
  cases assign : c₁.at? .assign with
  | true =>
    refine settled_bind_one (ih _ _ (.declarators_value name assign)) fun v c₂ value => ?_
    exact settled_of_initializer ih name (.initializer assign (derives_iff.mpr value)) _
  | false => exact settled_of_initializer ih name (.initializer_none assign) _

lemma declaration_settled {kind : VarKind} {terminated : Bool}
    (ih : CallsSettled d d' (.declaration kind terminated) c) :
    Settled (Grammar.declaration (d + 1) kind terminated c)
      (Grammar.declaration (d' + 1) kind terminated c) := by
  rw [Grammar.declaration, Grammar.declaration]
  refine settled_bind_many (ih _ _ .declaration) fun _ c₁ _ => ?_
  cases terminated with
  | true => exact (settled_endStatement c₁).bind fun _ _ => .ok _
  | false => exact .ok _

lemma parenthesized_settled (ih : CallsSettled d d' .parenthesized c) :
    Settled (Grammar.parenthesized (d + 1) c) (Grammar.parenthesized (d' + 1) c) := by
  rw [Grammar.parenthesized, Grammar.parenthesized]
  refine settled_bind_expect fun paren => ?_
  refine settled_bind_one (ih _ _ (.parenthesized paren)) fun _ _ _ => ?_
  exact settled_bind_expect fun _ => .ok _

lemma optional_settled {closer : Punct} (ih : CallsSettled d d' (.optional closer) c) :
    Settled (Grammar.optional (d + 1) closer c) (Grammar.optional (d' + 1) closer c) := by
  rw [Grammar.optional, Grammar.optional]
  cases close : c.at? closer with
  | true => exact .ok _
  | false => exact settled_bind_one (ih _ _ (.optional close)) fun _ _ _ => .ok _

lemma forInit_settled (ih : CallsSettled d d' .forInit c) :
    Settled (Grammar.forInit (d + 1) c) (Grammar.forInit (d' + 1) c) := by
  have declared {kind : VarKind} (word : varKind? c.kind = some kind) :=
    ih _ _ (.forInit_declaration word)
  rw [Grammar.forInit, Grammar.forInit]
  split
  case h_1 word => exact settled_bind_one (declared (by rw [word]; rfl)) fun _ _ _ => .ok _
  case h_2 word => exact settled_bind_one (declared (by rw [word]; rfl)) fun _ _ _ => .ok _
  case h_3 word => exact settled_bind_one (declared (by rw [word]; rfl)) fun _ _ _ => .ok _
  case h_4 notVar notLet notConst =>
    have word : varKind? c.kind = none := by
      unfold varKind?
      split <;> simp_all
    exact settled_maybe.mp (ih _ _ (.forInit word))

lemma forStatement_settled {ctx : Context} (ih : CallsSettled d d' (.forStatement ctx) c) :
    Settled (Grammar.forStatement (d + 1) ctx c) (Grammar.forStatement (d' + 1) ctx c) := by
  rw [Grammar.forStatement, Grammar.forStatement]
  refine settled_bind_expect fun paren => ?_
  refine settled_bind_maybe (ih _ _ (.forStatement_init paren)) fun i c₁ init => ?_
  have init : Derives d .forInit _ (.maybe i) c₁ := derives_iff.mpr init
  dsimp only
  split
  case isTrue => exact .error (by simp)
  case isFalse =>
    refine settled_bind_expect fun first => ?_
    refine settled_bind_maybe (ih _ _ (.forStatement_test paren init first)) fun t c₂ test => ?_
    have test : Derives d (.optional .semicolon) _ (.maybe t) c₂ := derives_iff.mpr test
    refine settled_bind_expect fun second => ?_
    refine settled_bind_maybe (ih _ _ (.forStatement_update paren init first test second))
      fun u c₃ update => settled_bind_expect fun close => ?_
    exact settled_bind_one (ih _ _ (.forStatement_body paren init first test second
      (derives_iff.mpr update) close)) fun _ _ _ => .ok _

lemma statement_settled {ctx : Context} (ih : CallsSettled d d' (.statement ctx) c) :
    Settled (Grammar.statement (d + 1) ctx c) (Grammar.statement (d' + 1) ctx c) := by
  by_cases expression : beginsExpression c.kind = true
  · rw [statement_of_expression expression, statement_of_expression expression]
    refine settled_bind_one (ih _ _ (.statement_expression expression)) fun _ c₁ _ => ?_
    exact (settled_endStatement c₁).bind fun _ _ => .ok _
  have declared {kind : VarKind} (word : varKind? c.kind = some kind) :=
    settled_one.mp (ih _ _ (.statement_declaration word))
  rw [Grammar.statement, Grammar.statement]
  split
  case h_1 token => exact settled_one.mp (ih _ _ (.statement_block token))
  case h_2 token => exact declared (by rw [token]; rfl)
  case h_3 token => exact declared (by rw [token]; rfl)
  case h_4 token => exact declared (by rw [token]; rfl)
  case h_5 token =>
    refine (settled_bindingIdentifier c.advance).bind_pair fun n c₁ name => ?_
    exact settled_bind_function (ih _ _ (.statement_function token name)) fun _ _ _ _ => .ok _
  case h_6 token =>
    refine settled_bind_one (ih _ _ (.statement_if token)) fun t c₁ test => ?_
    have test : Derives d .parenthesized _ (.one t) c₁ := derives_iff.mpr test
    refine settled_bind_one (ih _ _ (.statement_consequent token test)) fun s c₂ consequent => ?_
    dsimp only
    split
    case isTrue word =>
      exact settled_bind_one (ih _ _ (.statement_alternate token test
        (derives_iff.mpr consequent) word)) fun _ _ _ => .ok _
    case isFalse => exact .ok _
  case h_7 token => exact settled_one.mp (ih _ _ (.statement_for token))
  case h_8 token =>
    refine settled_bind_one (ih _ _ (.statement_while token)) fun t c₁ test => ?_
    exact settled_bind_one (ih _ _ (.statement_body token (derives_iff.mpr test)))
      fun _ _ _ => .ok _
  case h_9 token =>
    cases legal : ctx.inFunction with
    | false => exact .error (by simp)
    | true =>
      simp only [Bool.not_true, Bool.false_eq_true, if_false]
      cases ends : mayEnd c.advance with
      | true => exact (settled_endStatement c.advance).bind fun _ _ => .ok _
      | false =>
        refine settled_bind_maybe (ih _ _ (.statement_return token legal ends)) fun _ c₁ _ => ?_
        exact (settled_endStatement c₁).bind fun _ _ => .ok _
  case h_10 token =>
    dsimp only
    cases sameLine : c.advance.newlineBefore with
    | true => exact .error (by simp)
    | false =>
      refine settled_bind_one (ih _ _ (.statement_throw token sameLine)) fun _ c₁ _ => ?_
      exact (settled_endStatement c₁).bind fun _ _ => .ok _
  case h_11 =>
    cases ctx.inLoop with
    | false => exact .error (by simp)
    | true => exact (settled_endStatement c.advance).bind fun _ _ => .ok _
  case h_12 =>
    cases ctx.inLoop with
    | false => exact .error (by simp)
    | true => exact (settled_endStatement c.advance).bind fun _ _ => .ok _
  case h_13 => exact (settled_endStatement c.advance).bind fun _ _ => .ok _
  case h_14 => exact .ok _
  case h_15 word _ =>
    refine .error ?_
    rw [reservedFault]
    cases Construct.ofWord? word <;> simp
  case h_16 =>
    refine absurd ?_ expression
    cases hk : c.kind with
    | keyword k => cases k <;> first | rfl | simp_all
    | punct p => cases p <;> first | rfl | simp_all
    | _ => first | rfl | simp_all

lemma programBody_settled (ih : CallsSettled d d' .programBody c) :
    Settled (Grammar.programBody (d + 1) c) (Grammar.programBody (d' + 1) c) := by
  rw [Grammar.programBody, Grammar.programBody]
  cases more : c.atEnd with
  | true => exact .ok _
  | false =>
    refine settled_bind_one (ih _ _ (.programBody_first more)) fun p c₁ first => ?_
    exact settled_bind_many (ih _ _ (.programBody_rest more (derives_iff.mpr first)))
      fun _ _ _ => .ok _

end Functions

/-- An answer is settled if those are that it takes. -/
lemma settled_of_calls (sought : g.Sought c) (ih : CallsSettled d d' g c) :
    Settled (g.run (d + 1) c) (g.run (d' + 1) c) := by
  cases g with
  | assignment => exact settled_one.mpr (assignment_settled ih)
  | conditional => exact settled_one.mpr (conditional_settled ih)
  | operators level => exact settled_one.mpr (operators_settled ih)
  | operatorTail level left => exact settled_one.mpr (operatorTail_settled ih)
  | unary => exact settled_one.mpr (unary_settled ih)
  | postfixed => exact settled_one.mpr (postfixed_settled ih)
  | accesses calls callee => exact settled_one.mpr (accesses_settled ih)
  | construction => exact settled_one.mpr (construction_settled ih)
  | elements closer => exact settled_many.mpr (elements_settled ih)
  | properties => exact settled_many.mpr (properties_settled ih)
  | primary => exact settled_one.mpr (primary_settled ih)
  | parameters => exact settled_many.mpr (parameters_settled ih)
  | functionRest => exact settled_function.mpr (functionRest_settled ih)
  | block ctx => exact settled_one.mpr (block_settled ih)
  | blockBody ctx => exact settled_many.mpr (blockBody_settled ih)
  | declarators => exact settled_many.mpr (declarators_settled ih)
  | declaration kind terminated => exact settled_one.mpr (declaration_settled ih)
  | parenthesized => exact settled_one.mpr (parenthesized_settled ih)
  | optional closer => exact settled_maybe.mpr (optional_settled ih)
  | forInit => exact settled_maybe.mpr (forInit_settled ih)
  | forStatement ctx => exact settled_one.mpr (forStatement_settled ih)
  | statement ctx => exact settled_one.mpr (statement_settled ih)
  | programBody => exact settled_many.mpr (programBody_settled ih)
  | head | initializer | result => exact sought.elim

lemma weight_pos (g : Goal) : 0 < g.weight := by
  cases g <;> exact Nat.succ_pos _

/-- Within a depth that suffices for the chains of calls, the answer is settled. -/
theorem settled_of_enough (sought : g.Sought c) (enough : g.measure c ≤ d) (le : d ≤ d') :
    Settled (g.run d c) (g.run d' c) := by
  induction d generalizing g c d' with
  | zero =>
    have := weight_pos g
    rw [Goal.measure] at enough
    omega
  | succ d ih =>
    obtain ⟨k, rfl⟩ : ∃ k, d' = k + 1 := ⟨d' - 1, by omega⟩
    refine settled_of_calls sought fun g' c' call => ?_
    have less := call.measure_lt sought
    exact ih call.sought (by omega) (by omega)

end ScriptDebugger.Grammar
