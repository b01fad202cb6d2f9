import ScriptDebugger.Proofs.Syntax.Functions
import ScriptDebugger.Proofs.Syntax.RespannedGrammar
import ScriptDebugger.Proofs.Token.Enclosed

/-!
# Programs of one function

The text of a function, cut out of a program and put in parentheses, is a program of
one statement: the same function, as an expression, with its offsets moved
(`exists_program_of_function`).
-/

namespace ScriptDebugger

open Token

/-- Where the spans of a text go that is cut out from byte `p` on and put in parentheses. -/
def Displacement.reseat (p : Nat) : Displacement where
  start := Token.reseat p
  stop := Token.reseat p
  start_mono _ _ h := Nat.sub_le_sub_right (Nat.succ_le_succ h) p
  stop_mono _ _ h := Nat.sub_le_sub_right (Nat.succ_le_succ h) p

lemma Token.twins_reseat (p : Nat) (ts : List Token) :
    List.Forall₂ (Twin (.reseat p)) ts (ts.map (move (reseat p))) := by
  rw [List.forall₂_map_right_iff, List.forall₂_same]
  exact fun t _ => ⟨rfl, rfl, fun _ => rfl⟩

namespace Grammar

open Cursor

variable {d : Nat} {y : Yield} {p : Phrase} {c c' c₁ : Cursor} {text : String}
  {all tokens : List Token}

/-- A function is read from its first token alike wherever that token stands. -/
lemma Derives.function_congr (h : Derives d .primary c y c')
    (word : c.kind = .keyword .functionWord) (kind : c₁.kind = c.kind) (span : c₁.span = c.span)
    (next : c₁.advance = c.advance) : Derives d .primary c₁ y c' := by
  refine h.function_cases (motive := fun d y c' => Derives d .primary c₁ y c') word ?anonymous
    ?named
  case anonymous =>
    intro d ps b c' anonymous rest
    rw [← next] at anonymous rest
    rw [← span]
    exact .primary_function (kind.trans word) anonymous rest
  case named =>
    intro d name ps b c' named rest
    rw [← next] at named rest
    rw [← span, ← next]
    exact .primary_namedFunction (kind.trans word) named rest

/-- A function ends with a closing brace. -/
lemma Derives.function_closes (h : Derives d .primary c (.one p) c')
    (word : c.kind = .keyword .functionWord) :
    p.span = c'.spanFrom c.span ∧
      ∃ c₁, c.advance.Reaches c₁ ∧ c₁.at? .rightBrace = true ∧ c' = c₁.advance := by
  have closes {c₀ c c' : Cursor} {d : Nat} {y : Yield} (on : c₀.Reaches c)
      (h : Derives d .functionRest c y c') :
      ∃ c₁, c₀.Reaches c₁ ∧ c₁.at? .rightBrace = true ∧ c' = c₁.advance := by
    cases h with
    | functionRest paren params close body =>
      cases body with
      | block brace body =>
        have params := params.reaches on.advance
        exact ⟨_, body.reaches params.advance.advance, body.at_rightBrace ⟨_, rfl⟩, rfl⟩
  refine h.function_cases (motive := fun _ y c' => ∀ p, y = .one p → p.span = c'.spanFrom c.span ∧
    ∃ c₁, c.advance.Reaches c₁ ∧ c₁.at? .rightBrace = true ∧ c' = c₁.advance) word ?anonymous
    ?named p rfl
  case anonymous =>
    rintro d ps b c' - rest p ⟨⟩
    exact ⟨rfl, closes (.refl _) rest⟩
  case named =>
    rintro d name ps b c' - rest p ⟨⟩
    exact ⟨rfl, closes (Reaches.refl _).advance rest⟩

lemma graft_of_append {us zs : List Token} (h : c.tokens = us ++ c'.tokens) :
    c.graft c'.left zs = ⟨us ++ zs, c.lastStop⟩ := by
  rw [graft, left, left, h, List.length_append, Nat.add_sub_cancel, List.take_left]

/-- The tokens of a function go from the word `function` to a brace, which is where its span ends.
It is read from them wherever they stand. -/
lemma exists_tokens_of_function (ordered : Token.Ordered 0 all) (on : (Cursor.start all).Reaches c)
    (word : c.kind = .keyword .functionWord) (h : Derives d .primary c (.one p) c') :
    ∃ us first ms close rest, all = us ++ first :: (ms ++ close :: rest) ∧
      first.kind.isEndOfInput = false ∧ close.kind = .punct .rightBrace ∧
      p.span = ⟨first.span.start, close.span.stop⟩ ∧
      ∀ zs stop, Derives d .primary ⟨⟨first.kind, first.span, false, false⟩ :: (ms ++ close :: zs),
        stop⟩ (.one p) ⟨zs, close.span.stop⟩ := by
  obtain ⟨span, c₁, ⟨ms, inner⟩, brace, rfl⟩ := h.function_closes word
  obtain ⟨us, before⟩ := on
  have more : c.atEnd = false := not_atEnd_of_kind_eq word rfl
  have closes := not_atEnd_of_at? brace
  have tokens : c.tokens = (c.current :: (ms ++ [c₁.current])) ++ c₁.advance.tokens := by
    rw [(Consumes.token more).tokens, inner.tokens, (Consumes.token closes).tokens]
    simp
  have split : all = us ++ c.current :: (ms ++ c₁.current :: c₁.advance.tokens) := by
    have whole : all = us ++ c.tokens := before.tokens
    rw [whole, tokens]
    simp
  have last : c₁.advance.lastStop = c₁.current.span.stop := lastStop_advance closes
  refine ⟨us, c.current, ms, c₁.current, c₁.advance.tokens, split, more, kind_of_at? brace, ?_,
    fun zs stop => ?_⟩
  · rw [split] at ordered
    obtain ⟨-, later, -⟩ := List.pairwise_append.mp ordered.pairwise
    have apart := (List.pairwise_cons.mp later).1 c₁.current (by simp)
    have nonempty := ordered.nonempty (t := c₁.current) (by simp) closes
    have stops : c.span.stop ≤ c₁.current.span.stop := Nat.le_trans apart (Nat.le_of_lt nonempty)
    rw [span, spanFrom, last, Nat.max_eq_left stops]
    rfl
  · have grafted := h.function_graft zs word
    have image : c.graft c₁.advance.left zs =
        ⟨c.current :: (ms ++ c₁.current :: zs), c.lastStop⟩ := by
      rw [graft_of_append tokens]
      simp
    rw [image, last] at grafted
    let head : Token := ⟨c.current.kind, c.current.span, false, false⟩
    have next : (Cursor.mk (head :: (ms ++ c₁.current :: zs)) stop).advance =
        ⟨ms ++ c₁.current :: zs, c.current.span.stop⟩ := advance_of_tokens (t := head) rfl more
    exact grafted.function_congr word rfl rfl (next.trans (advance_of_tokens rfl more).symm)

/-- An expression in parentheses is a program with a semicolon behind it. -/
lemma program_of_paren {size : Nat}
    (found : Finds .primary (Cursor.start tokens).advance (.one p) c)
    (paren : (Cursor.start tokens).kind = .punct .leftParen) (close : c.kind = .punct .rightParen)
    (semicolon : c.advance.kind = .punct .semicolon) (ends : c.advance.advance.atEnd = true) :
    ∃ s, program size tokens =
      .ok ⟨⟨0, size⟩, .program [⟨s, .expressionStatement p⟩]⟩ := by
  have operand : Operand 12 (Cursor.start tokens).advance p c :=
    .of_primary (by omega) fun _ => found
  have found := (operand.paren paren close).findsAssignment (goesOn_of_kind semicolon)
  have begins : beginsExpression (Cursor.start tokens).kind = true := by rw [paren]; rfl
  exact ⟨_, program_of_assignment found begins semicolon ends⟩

/-- The text of a function in parentheses is a program of one function. -/
theorem exists_program_of_function (lexed : Token.ofText text = .ok all)
    (on : (Cursor.start all).Reaches c) (word : c.kind = .keyword .functionWord)
    (h : Derives d .primary c (.one p) c') (size : Nat) :
    ∃ ts s, Token.ofText (parenthesize (p.span.slice text)) = .ok ts ∧
      program size ts = .ok ⟨⟨0, size⟩,
        .program [⟨s, .expressionStatement ((Displacement.reseat p.span.start).phrase p)⟩]⟩ := by
  obtain ⟨us, first, ms, close, rest, rfl, inside, brace, span, read⟩ :=
    exists_tokens_of_function (Token.ordered_ofText lexed) on word h
  have lexed' := Token.ofText_parenthesize lexed inside brace
  rw [← span] at lexed'
  have start : p.span.start = first.span.start := by rw [span]
  rw [start]
  set m := Displacement.reseat first.span.start
  set closing := Token.closing close.span.stop
  let cut : Cursor := ⟨⟨first.kind, first.span, false, false⟩ :: (ms ++ close :: closing),
    first.span.start⟩
  have paired : Paired m cut ⟨cut.tokens.map (move (reseat first.span.start)), 1⟩ := by
    refine ⟨Token.twins_reseat _ _, ?_⟩
    exact (reseat_add first.span.start 0).symm
  obtain ⟨_, run, same⟩ := yields_eq_ok.mp (run_of_derives (read closing first.span.start))
  cases same
  have alike := (sameReading m d).primary paired
  rw [run] at alike
  obtain ⟨⟨p', c''⟩, run', ⟨moved⟩⟩ := alike.exists_ok
  let ts : List Token := ⟨.punct .leftParen, ⟨0, 1⟩, false, false⟩ ::
    cut.tokens.map (move (reseat first.span.start))
  have found : Finds .primary (Cursor.start ts).advance (.one (m.phrase p)) c'' :=
    ⟨d, derives_iff.mpr (yields_ok run')⟩
  obtain ⟨s, program⟩ := program_of_paren found rfl moved.kind_eq moved.advance.kind_eq
    moved.advance.advance.atEnd_eq
  exact ⟨ts, s, lexed', program⟩

end Grammar

end ScriptDebugger
