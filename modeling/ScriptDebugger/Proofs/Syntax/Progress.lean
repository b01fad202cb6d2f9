import ScriptDebugger.Proofs.Syntax.Allocation
import ScriptDebugger.Proofs.Syntax.Calls

/-!
# Progress of a parse

A cursor moves by consuming the token at hand, so it stays on a stream of tokens
whose only end of input is the last one (`Cursor.On`), and what the grammar
functions come to is searched for on it. Whoever calls a loop again has consumed a
token by then, and so has a statement or an expression that is found: parsing ends,
and a program has been read up to its end of input (`parsing_ends`).
-/

namespace ScriptDebugger

namespace Cursor

/-- At least one token further. -/
def Advances (c c' : Cursor) : Prop := ∃ read, read ≠ [] ∧ c.tokens = read ++ c'.tokens

/-- On a token of the stream, which may be its end of input. -/
def On (before : List Token) (eof : Token) (c : Cursor) : Prop :=
  ∃ rest, rest <:+ before ∧ c.tokens = rest ++ [eof]

variable {before : List Token} {eof : Token} {c c' : Cursor}

lemma on_start (before : List Token) (eof : Token) : (start (before ++ [eof])).On before eof :=
  ⟨before, List.suffix_rfl, rfl⟩

/-- Nothing moves past the end of input. -/
lemma On.advance (last : eof.kind.isEndOfInput = true)
    (only : ∀ t ∈ before, t.kind.isEndOfInput = false) (h : c.On before eof) :
    c.advance.On before eof := by
  obtain ⟨rest, suffix, tokens⟩ := h
  cases rest with
  | nil =>
    rw [advance_of_atEnd (by rwa [atEnd, kind_of_tokens tokens])]
    exact ⟨[], suffix, tokens⟩
  | cons t rest =>
    rw [advance_of_tokens tokens (only t (suffix.subset List.mem_cons_self))]
    exact ⟨rest, (List.suffix_cons t rest).trans suffix, rfl⟩

lemma On.tokens_of_atEnd (only : ∀ t ∈ before, t.kind.isEndOfInput = false)
    (h : c.On before eof) (ends : c.atEnd = true) : c.tokens = [eof] := by
  obtain ⟨rest, suffix, tokens⟩ := h
  cases rest with
  | nil => exact tokens
  | cons t rest =>
    have more : c.atEnd = false := by
      rw [atEnd, kind_of_tokens tokens]
      exact only t (suffix.subset List.mem_cons_self)
    exact absurd (ends.symm.trans more) (by decide)

lemma suffix_advance (c : Cursor) : c.advance.tokens <:+ c.tokens := by
  cases ends : c.atEnd with
  | true => exact (congrArg Cursor.tokens (advance_of_atEnd ends)).symm ▸ List.suffix_rfl
  | false =>
    cases hc : c.tokens with
    | nil => simp [atEnd, kind, current, hc, TokenKind.isEndOfInput] at ends
    | cons t rest =>
      rw [atEnd, kind_of_tokens hc] at ends
      rw [advance_of_tokens hc ends]
      exact List.suffix_cons t rest

lemma advances_of_left_lt (suffix : c'.tokens <:+ c.tokens) (less : c'.left < c.left) :
    Advances c c' := by
  obtain ⟨read, tokens⟩ := suffix
  refine ⟨read, ?_, tokens.symm⟩
  rintro rfl
  rw [left, left, ← tokens, List.nil_append] at less
  exact Nat.lt_irrefl _ less

end Cursor

/-- Those functions of a parser that read a list, one of its nodes in each round. -/
def Parser.lists (d : Nat) (ctx : Grammar.Context) (closer : Punct) :
    List (Parser → Grammar.Result (List NodeId × Parser)) :=
  [parameters d, elements d closer, properties d, blockBody d ctx, declarators d, programBody d]

namespace Grammar

open Cursor

variable {d : Nat} {g g' : Goal} {c c' : Cursor} {y : Yield}

lemma bindingIdentifier_advance {n : Phrase} (h : bindingIdentifier c = .ok (n, c')) :
    c' = c.advance := by
  simp only [bindingIdentifier] at h
  split at h <;> cases h
  rfl

lemma propertyName_advance {n : Phrase} (h : propertyName c = .ok (n, c')) : c' = c.advance := by
  simp only [propertyName] at h
  split at h <;> cases h <;> rfl

lemma propertyKey_advance {k : String} (h : propertyKey c = .ok (k, c')) : c' = c.advance := by
  simp only [propertyKey] at h
  split at h <;> cases h <;> rfl

lemma endStatement_advance (h : endStatement c = .ok c') : c' = c ∨ c' = c.advance := by
  simp only [endStatement] at h
  split at h
  case isTrue =>
    cases h
    exact .inr rfl
  case isFalse =>
    split at h
    case isTrue =>
      cases h
      exact .inl rfl
    case isFalse =>
      simp only [refuseArrow] at h
      split at h <;> cases h

attribute [local grind →] bindingIdentifier_advance propertyName_advance propertyKey_advance
  endStatement_advance

section Kept

variable {P : Cursor → Prop} (step : ∀ c, P c → P c.advance)
include step

/-- A cursor moves only by consuming the token at hand. -/
lemma Derives.keeps (h : Derives d g c y c') (start : P c) : P c' := by
  induction h
  all_goals grind

lemma Calls.keeps (h : Calls g c g' c') (start : P c) : P c' := by
  have found {d g c y c'} (h : Derives d g c y c') : P c → P c' := h.keeps step
  cases h
  all_goals grind

end Kept

lemma suffix_step (all : List Token) (c : Cursor) (h : c.tokens <:+ all) :
    c.advance.tokens <:+ all := (suffix_advance c).trans h

/-- What needs a token consumes one. -/
lemma Derives.advances (h : Derives d g c y c') (hg : g.consumes = true) : Advances c c' :=
  advances_of_left_lt (h.keeps (suffix_step c.tokens) List.suffix_rfl) (h.left_lt hg)

/-- The loops of the grammar. -/
inductive Loop where
  | operands
  | accesses
  | elements
  | properties
  | parameters
  | blockBody
  | declarators
  | programBody

/-- The loop that a goal is one more round of. -/
def Goal.loop? : Goal → Option Loop
  | .operatorTail .. => some .operands
  | .accesses .. => some .accesses
  | .elements _ => some .elements
  | .properties => some .properties
  | .parameters => some .parameters
  | .blockBody _ => some .blockBody
  | .declarators => some .declarators
  | .programBody => some .programBody
  | _ => none

/-- All rounds of a loop are of one weight. -/
def Loop.weight : Loop → Nat
  | .blockBody | .programBody => 8
  | .elements => 7
  | _ => 1

lemma weight_of_loop {l : Loop} (h : g.loop? = some l) : g.weight = l.weight := by
  cases g <;> cases h <;> rfl

lemma sought_of_loop {l : Loop} (h : g.loop? = some l) : g.Sought c := by
  cases g <;> first | exact trivial | cases h

/-- From one round of a loop to the next at least one token is consumed. -/
lemma Calls.advances (h : Calls g c g' c') {l : Loop} (loop : g.loop? = some l)
    (again : g'.loop? = some l) : Advances c c' := by
  have less := h.measure_lt (sought_of_loop loop)
  rw [Goal.measure, Goal.measure, weight_of_loop loop, weight_of_loop again] at less
  exact advances_of_left_lt (h.keeps (suffix_step c.tokens) List.suffix_rfl) (by omega)

/-- How many phrases are found one after another. -/
def Yield.count : Yield → Nat
  | .many ps => ps.length
  | _ => 0

attribute [local grind →] left_of_at? left_of_bindingIdentifier left_of_propertyKey
  Derives.left_le

/-- In a list each phrase takes at least one token. -/
lemma Derives.left_add_count_le (h : Derives d g c y c') : c'.left + y.count ≤ c.left := by
  induction h with
  | elements_last close first comma =>
    have := first.left_lt rfl
    simp only [Yield.count, List.length_singleton]
    omega
  | blockBody_cons close more first rest first_ih rest_ih =>
    have := first.left_lt rfl
    simp only [Yield.count, List.length_cons] at *
    omega
  | programBody_cons more first rest first_ih rest_ih =>
    have := first.left_lt rfl
    simp only [Yield.count, List.length_cons] at *
    omega
  | _ =>
    simp only [Yield.count, List.length_cons, List.length_nil] at *
    grind [left_advance_le]

/-- What is searched for, and where, while a program is parsed. -/
inductive Searched (tokens : List Token) : Goal → Cursor → Prop
  | program : Searched tokens .programBody (.start tokens)
  | call {g g' : Goal} {c c' : Cursor} (h : Searched tokens g c) (call : Calls g c g' c') :
      Searched tokens g' c'

lemma Searched.sought {tokens : List Token} (h : Searched tokens g c) : g.Sought c := by
  cases h with
  | program => trivial
  | call _ call => exact call.sought

lemma Searched.on {before : List Token} {eof : Token} (last : eof.kind.isEndOfInput = true)
    (only : ∀ t ∈ before, t.kind.isEndOfInput = false)
    (h : Searched (before ++ [eof]) g c) : c.On before eof := by
  induction h with
  | program => exact on_start before eof
  | call _ call ih => exact call.keeps (fun _ => On.advance last only) ih

/-- A program is parsed within `depthFor`: a greater depth does not change the answer. -/
lemma settled_programBody (tokens : List Token) (le : depthFor tokens.length ≤ d) :
    Settled (programBody (depthFor tokens.length) (.start tokens))
      (programBody d (.start tokens)) := by
  have enough : Goal.programBody.measure (.start tokens) ≤ depthFor tokens.length := by
    have : (Cursor.start tokens).left = tokens.length := rfl
    simp only [Goal.measure, Goal.weight, depthFor]
    omega
  have sought : Goal.programBody.Sought (.start tokens) := trivial
  exact settled_many.mp (settled_of_enough sought enough le)

lemma shallow_program {size : Nat} {tokens : List Token} {e : ParseError}
    (h : program size tokens = .error e) : e.fault ≠ .tooDeep := by
  rw [program] at h
  cases answer : programBody (depthFor tokens.length) (.start tokens) with
  | ok x =>
    rw [answer] at h
    cases h
  | error e =>
    rw [answer] at h
    cases h
    exact (settled_programBody tokens le_rfl).2 _ answer

lemma error_of_map {α β : Type} {f : α → β} {r : Result α} {e : ParseError}
    (h : r.map f = .error e) : r = .error e := by
  cases r with
  | error e' => cases h; rfl
  | ok a => cases h

/-- What a parser has read, the grammar finds between its cursors. -/
lemma derives_of_entered {α β : Type} {form : α → Yield} {r : Result (α × Cursor)}
    {enter : α × Cursor → β × Parser} {p' : Parser} {b : β} (run : g.run d c = yields form r)
    (reads : ∀ x, (enter x).2.cursor = x.2)
    (found : r.map enter = .ok (b, p')) :
    ∃ a, Derives d g c (form a) p'.cursor := by
  cases r with
  | error e => cases found
  | ok x =>
    have last : x.2 = p'.cursor :=
      (reads x).symm.trans (congrArg (·.2.cursor) (Except.ok.inj found))
    exact ⟨x.1, derives_iff.mpr (last ▸ run)⟩

lemma advances_of_entered {p p' : Parser} {r : Result (Phrase × Cursor)} {id : NodeId}
    (consumes : g.consumes = true) (run : g.run d p.cursor = yields .one r)
    (found : r.map p.enter = .ok (id, p')) : Advances p.cursor p'.cursor := by
  obtain ⟨q, derived⟩ := derives_of_entered run (fun _ => rfl) found
  exact derived.advances consumes

/-- A list that a parser has read takes at least one token for each of its nodes. -/
lemma left_add_length_le_of_entered {p p' : Parser} {r : Result (List Phrase × Cursor)}
    {ids : List NodeId} (run : g.run d p.cursor = yields .many r)
    (found : r.map p.enterAll = .ok (ids, p')) :
    p'.cursor.left + ids.length ≤ p.cursor.left := by
  cases r with
  | error e => cases found
  | ok x =>
    cases found
    have taken := (derives_iff.mpr run).left_add_count_le
    rwa [Yield.count, ← p.length_idsOf] at taken

/-- What holds of parsing the tokens `before` and the end of input behind them. -/
structure ParsingEnds (before : List Token) (eof : Token) (start : Parser) : Prop where
  /-- The functions of the parser search for what their namesakes do, and at the same places. -/
  follows : ∀ d, Parser.Allocates d
  /-- No chain of searches goes on forever. -/
  wellFounded : WellFounded fun s s' : Goal × Cursor =>
    Searched (before ++ [eof]) s'.1 s'.2 ∧ Calls s'.1 s'.2 s.1 s.2
  /-- There is an answer, and the bound on the depth has no part in it. -/
  answers : ∃ answer, (∀ e, answer = .error e → e.fault ≠ .tooDeep) ∧
    ∀ d, depthFor (before ++ [eof]).length ≤ d → start.programBody d = answer
  program_answers : ∀ size e, start.program size = .error e → e.fault ≠ .tooDeep
  statement_advances : ∀ d ctx (p : Parser) id p', p.statement d ctx = .ok (id, p') →
    Advances p.cursor p'.cursor
  assignment_advances : ∀ d (p : Parser) id p', p.assignment d = .ok (id, p') →
    Advances p.cursor p'.cursor
  unary_advances : ∀ d (p : Parser) id p', p.unary d = .ok (id, p') → Advances p.cursor p'.cursor
  /-- From one round of a loop to the next. -/
  loop_advances : ∀ g c g' c' l, Calls g c g' c' → g.loop? = some l → g'.loop? = some l →
    Advances c c'
  /-- A list takes at least one token for each of its nodes. -/
  lists_advance : ∀ d ctx closer, ∀ list ∈ Parser.lists d ctx closer, ∀ (p : Parser) ids p',
    list p = .ok (ids, p') → p'.cursor.left + ids.length ≤ p.cursor.left
  /-- The last round of a loop that gives a list, too, takes a token for its phrase. -/
  list_advances : ∀ d g c ps c', Derives d g c (.many ps) c' → c'.left + ps.length ≤ c.left
  /-- Nothing is searched for past the end of input. -/
  searched_on : ∀ g c, Searched (before ++ [eof]) g c → c.On before eof
  /-- Nothing that is found leaves the cursor past it. -/
  found_on : ∀ g c d y c', Searched (before ++ [eof]) g c → Derives d g c y c' → c'.On before eof
  program_at_end : ∀ d body p, start.programBody d = .ok (body, p) → p.cursor.tokens = [eof]

/-- Parsing a stream whose only end of input is its last token ends, having read all of it. -/
theorem parsing_ends {before : List Token} {eof : Token} (sourceType : SourceType)
    (table? : Option LineTable) (last : eof.kind.isEndOfInput = true)
    (only : ∀ t ∈ before, t.kind.isEndOfInput = false) :
    ParsingEnds before eof (.start (before ++ [eof]) sourceType table?) where
  follows := Parser.allocates
  wellFounded := Subrelation.wf (fun h => ⟨h.1.sought, h.2⟩) wellFounded_calls
  answers := by
    set p : Parser := .start (before ++ [eof]) sourceType table?
    have settled := fun d => settled_programBody (d := d) (before ++ [eof])
    have entered (d : Nat) : p.programBody d =
        (programBody d (.start (before ++ [eof]))).map p.enterAll :=
      Parser.programBody_moveTo d p _
    refine ⟨(programBody (depthFor (before ++ [eof]).length) (.start (before ++ [eof]))).map
      p.enterAll, fun e failed => ?_, fun d le => ?_⟩
    · exact (settled _ le_rfl).2 e (error_of_map failed)
    · rw [entered, (settled d le).1]
  program_answers size e failed := by
    rw [Parser.program_start] at failed
    exact shallow_program (error_of_map failed)
  statement_advances d ctx p id p' found := by
    have entered := (Parser.allocates d).statement ctx p p.cursor
    exact advances_of_entered (g := .statement ctx) rfl rfl (entered.symm.trans found)
  assignment_advances d p id p' found := by
    have entered := (Parser.allocates d).assignment p p.cursor
    exact advances_of_entered (g := .assignment) rfl rfl (entered.symm.trans found)
  unary_advances d p id p' found := by
    have entered := (Parser.allocates d).unary p p.cursor
    exact advances_of_entered (g := .unary) rfl rfl (entered.symm.trans found)
  lists_advance d ctx closer list mem p ids p' found := by
    have h := Parser.allocates d
    simp only [Parser.lists, List.mem_cons, List.not_mem_nil, or_false] at mem
    rcases mem with rfl | rfl | rfl | rfl | rfl | rfl
    · exact left_add_length_le_of_entered (g := .parameters) rfl
        ((h.parameters p p.cursor).symm.trans found)
    · exact left_add_length_le_of_entered (g := .elements closer) rfl
        ((h.elements closer p p.cursor).symm.trans found)
    · exact left_add_length_le_of_entered (g := .properties) rfl
        ((h.properties p p.cursor).symm.trans found)
    · exact left_add_length_le_of_entered (g := .blockBody ctx) rfl
        ((h.blockBody ctx p p.cursor).symm.trans found)
    · exact left_add_length_le_of_entered (g := .declarators) rfl
        ((h.declarators p p.cursor).symm.trans found)
    · exact left_add_length_le_of_entered (g := .programBody) rfl
        ((Parser.programBody_moveTo d p p.cursor).symm.trans found)
  loop_advances _ _ _ _ _ call loop again := call.advances loop again
  list_advances _ _ _ _ _ found := found.left_add_count_le
  searched_on _ _ searched := searched.on last only
  found_on _ _ _ _ _ searched found :=
    found.keeps (P := On before eof) (fun _ => On.advance last only) (searched.on last only)
  program_at_end d body p found := by
    have entered := Parser.programBody_moveTo d (.start (before ++ [eof]) sourceType table?)
      (.start (before ++ [eof]))
    obtain ⟨qs, derived⟩ := derives_of_entered (g := .programBody) rfl (fun _ => rfl)
      (entered.symm.trans found)
    have on := derived.keeps (P := On before eof) (fun _ => On.advance last only)
      (on_start before eof)
    exact on.tokens_of_atEnd only (derived.atEnd rfl)

/-- The program `a;`. -/
theorem parsing_ends_at_end :
    let start : Parser := .start [⟨.ident "a", ⟨0, 1⟩, false, false⟩,
      ⟨.punct .semicolon, ⟨1, 2⟩, false, false⟩, ⟨.endOfInput, .point 2, false, false⟩] .script none
    ∃ body p, start.programBody (depthFor 3) = .ok (body, p) ∧
      p.cursor.tokens = [⟨.endOfInput, .point 2, false, false⟩] := by
  intro start
  have ends := @parsing_ends
    [⟨.ident "a", ⟨0, 1⟩, false, false⟩, ⟨.punct .semicolon, ⟨1, 2⟩, false, false⟩]
    ⟨.endOfInput, .point 2, false, false⟩ .script none rfl (by simp [TokenKind.isEndOfInput])
  obtain ⟨body, p, found⟩ : ∃ body p, start.programBody (depthFor 3) = .ok (body, p) :=
    ⟨_, _, rfl⟩
  exact ⟨body, p, found, ends.program_at_end _ body p found⟩

end Grammar

end ScriptDebugger
