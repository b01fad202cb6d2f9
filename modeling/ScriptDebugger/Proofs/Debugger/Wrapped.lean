import ScriptDebugger.Debugger.Config
import ScriptDebugger.Proofs.Syntax.MovedDerivation
import ScriptDebugger.Proofs.Syntax.Recognition

/-!
# Wrapped texts

A text that parses does so as the body of a function, too: its wrapped form is a
single expression statement, whose function has the same statements, moved.
-/

namespace ScriptDebugger

namespace Config

/-- The bytes before the text in a wrapped text. -/
def bodyOffset : Nat := standard.openingLength + 1

/-- The tokens before those of the text. -/
def openingTokens : List Token :=
  [⟨.punct .leftParen, ⟨0, 1⟩, false, false⟩, ⟨.keyword .functionWord, ⟨1, 9⟩, false, false⟩,
    ⟨.punct .leftParen, ⟨9, 10⟩, false, false⟩, ⟨.punct .rightParen, ⟨10, 11⟩, false, false⟩,
    ⟨.punct .leftBrace, ⟨12, 13⟩, false, false⟩]

/-- The tokens after those of the text, from the closing brace at `start` on. -/
def closingTokens (start : Nat) (comment : Bool) : List Token :=
  [⟨.punct .rightBrace, ⟨start, start + 1⟩, true, comment⟩,
    ⟨.punct .rightParen, ⟨start + 1, start + 2⟩, false, false⟩,
    ⟨.punct .semicolon, ⟨start + 2, start + 3⟩, false, false⟩,
    ⟨.endOfInput, ⟨start + 3, start + 3⟩, false, false⟩]

lemma toList_wrap (text : String) :
    (standard.wrap text).toList =
      "(function() \x7b".toList ++ '\n' :: (text.toList ++ '\n' :: "\x7d);".toList) := by
  simp [wrap, standard]

/-- What comes before the text is read on its own. -/
lemma ofChars_opening (cs : List Char) :
    Lexeme.ofChars ("(function() \x7b".toList ++ '\n' :: cs) =
      [⟨.punct .leftParen, ['(']⟩, ⟨.word, "function".toList⟩, ⟨.punct .leftParen, ['(']⟩,
        ⟨.punct .rightParen, [')']⟩, ⟨.blank, [' ']⟩, ⟨.punct .leftBrace, ['\x7b']⟩,
        ⟨.newline, ['\n']⟩] ++ Lexeme.ofChars cs := by
  have alone : Lexeme.ofChars "(function() \x7b".toList =
      [⟨.punct .leftParen, ['(']⟩, ⟨.word, "function".toList⟩, ⟨.punct .leftParen, ['(']⟩,
        ⟨.punct .rightParen, [')']⟩, ⟨.blank, [' ']⟩, ⟨.punct .leftBrace, ['\x7b']⟩] := by
    decide +kernel
  rcases Lexeme.ofChars_append "(function() \x7b".toList cs (by rw [alone]; decide) with
    split | ⟨ls, hls, -⟩
  · rw [split, alone]
    rfl
  · rw [alone] at hls
    have := congrArg (fun ls => ls.getLast?.map (·.kind)) hls
    simp at this

lemma ofLexemes_closing (start : Nat) (comment : Bool) :
    Token.ofLexemes start true comment (Lexeme.ofChars "\x7d);".toList) =
      .ok (closingTokens start comment) := by
  have lexemes : Lexeme.ofChars "\x7d);".toList =
      [⟨.punct .rightBrace, ['\x7d']⟩, ⟨.punct .rightParen, [')']⟩,
        ⟨.punct .semicolon, [';']⟩] := by
    decide +kernel
  rw [lexemes]
  rfl

lemma ofLexemes_opening (ls : List Lexeme) :
    Token.ofLexemes 0 false false
      ([⟨.punct .leftParen, ['(']⟩, ⟨.word, "function".toList⟩, ⟨.punct .leftParen, ['(']⟩,
        ⟨.punct .rightParen, [')']⟩, ⟨.blank, [' ']⟩, ⟨.punct .leftBrace, ['\x7b']⟩,
        ⟨.newline, ['\n']⟩] ++ ls) =
      (Token.ofLexemes bodyOffset true false ls).map (openingTokens ++ ·) := by
  have read : Token.ofLexemes 0 false false
      ([⟨.punct .leftParen, ['(']⟩, ⟨.word, "function".toList⟩, ⟨.punct .leftParen, ['(']⟩,
        ⟨.punct .rightParen, [')']⟩, ⟨.blank, [' ']⟩, ⟨.punct .leftBrace, ['\x7b']⟩,
        ⟨.newline, ['\n']⟩] ++ ls) =
      openingTokens.foldr (fun t r => r.map (t :: ·)) (Token.ofLexemes bodyOffset true false ls) :=
    rfl
  rw [read]
  cases Token.ofLexemes bodyOffset true false ls <;> rfl

/-- The tokens of a wrapped text are those of the text, moved, between those of the function
around it. The text begins in a new line there. -/
theorem ofText_wrap {text : String} {ts : List Token} (h : Token.ofText text = .ok ts) :
    ∃ us last comment, ts = us ++ [last] ∧ last.kind = .endOfInput ∧
      (∀ u ∈ us, u.kind.isEndOfInput = false) ∧
      (∀ u ∈ us, Boundary text.toList u.span.start ∧ Boundary text.toList u.span.stop) ∧
      Token.ofText (standard.wrap text) =
        .ok (openingTokens ++
          ((us.map (Token.move (bodyOffset + ·))).modifyHead Token.afterNewline ++
            closingTokens (bodyOffset + byteLength text.toList + 1) comment)) := by
  have moved := Token.ofLexemes_newline
    (Token.ofLexemes_move (f := (bodyOffset + ·)) (fun k => (Nat.add_assoc _ 0 k).symm) h)
  have ends : ∀ t ∈ ts, Boundary text.toList t.span.start ∧ Boundary text.toList t.span.stop :=
    Token.boundary_ofLexemes (d := []) rfl (Lexeme.flatMap_chars_ofChars text.toList) h
  obtain ⟨us, last, -, rfl, hlast, inner, -⟩ := Token.ofLexemes_before_newline h
  obtain ⟨vs, last', comment, hvs, -, -, append⟩ := Token.ofLexemes_before_newline moved
  have same : (us.map (Token.move (bodyOffset + ·))).modifyHead Token.afterNewline = vs := by
    cases us with
    | nil =>
      have length := congrArg List.length hvs
      simp only [List.nil_append, List.length_modifyHead, List.length_map, List.length_append,
        List.length_singleton] at length
      exact (List.length_eq_zero_iff.mp (by omega)).symm
    | cons u us =>
      simp only [List.cons_append, List.map_cons, List.modifyHead_cons, List.map_append,
        List.map_nil] at hvs ⊢
      rw [← List.cons_append] at hvs
      exact (List.append_inj' hvs rfl).1
  refine ⟨us, last, comment, rfl, hlast, inner, fun u hu => ends u (by simp [hu]), ?_⟩
  rw [same, Token.ofText, Lexeme.ofText, toList_wrap, ofChars_opening, ofLexemes_opening]
  have append := append "\x7d);".toList
  rw [Nat.add_zero] at append
  rw [append, ofLexemes_closing]
  rfl

end Config

namespace Grammar

open Cursor

/-- An operand alone is an expression. -/
lemma assignment_of_primary {d : Nat} {c c' : Cursor} {p : Phrase}
    (primary : Derives (d + 1) .primary c (.one p) c') (notNew : c.atKeyword? .newWord = false)
    (notUnary : unaryOp? c.kind = none) (notUpdate : updateOp? c.kind = none)
    (closes : c'.kind = .punct .rightParen ∨ c'.kind = .punct .semicolon) :
    Derives (d + 6) .assignment c (.one p) c' := by
  have chain : Derives (d + 1) (.accesses true p) c' (.one p) c' := by
    apply Derives.accesses_none <;> rcases closes with h | h <;> rw [Cursor.at?, h] <;> rfl
  have postfixed : Derives (d + 2) .postfixed c (.one p) c' :=
    .postfixed_none (.head_primary notNew primary) chain
      (.inr (by rcases closes with h | h <;> rw [h] <;> rfl))
  have operators : Derives (d + 4) (.operators 1) c (.one p) c' :=
    .operators (.unary_postfixed notUnary notUpdate postfixed)
      (.operatorTail_none (by rcases closes with h | h <;> rw [h] <;> rfl))
  exact .assignment_none
    (.conditional_none operators (by rcases closes with h | h <;> rw [Cursor.at?, h] <;> rfl))
    (by rcases closes with h | h <;> rw [h] <;> rfl)

lemma programBody_wrapped {m start : Nat} {comment : Bool} {ts : List Token} {ps : List Phrase}
    {c : Cursor} (body : Derives m (.blockBody ⟨true, false⟩) ⟨ts, 13⟩ (.many ps) c)
    (tokens : c.tokens = Config.closingTokens start comment) :
    ∃ s₁ s₂ s₃ c', Derives (m + 16) .programBody (.start (Config.openingTokens ++ ts))
      (.many [⟨s₁, .expressionStatement
        ⟨s₂, .functionExpression none [] ⟨s₃, .blockStatement ps⟩⟩⟩]) c' := by
  have close := advance_of_tokens tokens rfl
  have block : Derives (m + 1) (.block ⟨true, false⟩)
      (.mk (Config.openingTokens.drop 4 ++ ts) 11) (.one ⟨_, .blockStatement ps⟩) c.advance :=
    .block rfl body
  have function : Derives (m + 3) .primary (.mk (Config.openingTokens.drop 1 ++ ts) 1)
      (.one ⟨_, .functionExpression none [] _⟩) c.advance :=
    .primary_function rfl (fun _ => nofun) (.functionRest rfl (.parameters_nil rfl) rfl block)
  rw [close] at function
  have paren : Derives (m + 9) .primary (.start (Config.openingTokens ++ ts)) _ _ :=
    .primary_paren rfl (assignment_of_primary function rfl rfl rfl (.inl rfl)) rfl rfl
  have statement : Derives (m + 15) (.statement ⟨false, false⟩)
      (.start (Config.openingTokens ++ ts)) _ _ :=
    .statement_expression rfl (assignment_of_primary paren rfl rfl rfl (.inr rfl)) rfl
  exact ⟨_, _, _, _, .programBody_cons rfl statement (.programBody_nil rfl)⟩

end Grammar

namespace Config

open Grammar

variable {f : Nat → Nat}

lemma closes_closingTokens (start : Nat) (comment : Bool) :
    Cursor.Closes (closingTokens start comment) := ⟨_, _, rfl, rfl⟩

lemma facing_start {us : List Token} {last : Token} {tail : List Token} (n : Nat)
    (hlast : last.kind = .endOfInput) (inner : ∀ u ∈ us, u.kind.isEndOfInput = false) :
    Cursor.Facing f tail (.start (us ++ [last]))
      ⟨(us.map (Token.move f)).modifyHead Token.afterNewline ++ tail, n⟩ := by
  have ends : last.kind.isEndOfInput = true := by rw [hlast]; rfl
  cases us with
  | nil => exact .atEnd last rfl ends rfl
  | cons u us =>
    obtain ⟨first, inner⟩ := List.forall_mem_cons.mp inner
    exact .token u (u.move f).afterNewline us last rfl first inner ends rfl rfl rfl

/-- A wrapped text is a function around the statements of the text, each offset moved as it may
be. -/
theorem parse_wrap {text : String} {s : Span} {body : List Phrase} (mono : Monotone f)
    (moves : ∀ n, Boundary text.toList n → f n = bodyOffset + n)
    (h : Phrase.parse text = .ok ⟨s, .program body⟩) :
    ∃ s₀ s₁ s₂ s₃, Phrase.parse (standard.wrap text) =
      .ok ⟨s₀, .program [⟨s₁, .expressionStatement ⟨s₂, .functionExpression none []
        ⟨s₃, .blockStatement (body.map (Phrase.move f))⟩⟩⟩]⟩ := by
  rw [Phrase.parse] at h
  cases lexed : Token.ofText text with
  | error e => rw [lexed] at h; cases h
  | ok ts =>
    rw [lexed] at h
    obtain ⟨body', c, derives, same⟩ := program_eq_ok.mp h
    cases same
    obtain ⟨us, last, comment, rfl, hlast, inner, ends, wrapped⟩ := ofText_wrap lexed
    have moved : us.map (Token.move (bodyOffset + ·)) = us.map (Token.move f) := by
      refine List.map_congr_left fun u hu => ?_
      simp only [Token.move, Span.move, moves _ (ends u hu).1, moves _ (ends u hu).2]
    rw [moved] at wrapped
    obtain ⟨c', tokens, inside⟩ := programBody_met
      (closes_closingTokens (bodyOffset + byteLength text.toList + 1) comment) mono 112 derives
      (facing_start 13 hlast inner)
    obtain ⟨s₁, s₂, s₃, c'', program⟩ := programBody_wrapped inside tokens
    refine ⟨⟨0, (standard.wrap text).utf8ByteSize⟩, s₁, s₂, s₃, ?_⟩
    rw [Phrase.parse, wrapped]
    refine program_eq_ok.mpr ⟨_, c'', ?_, rfl⟩
    convert program using 1
    simp only [depthFor, List.length_append, List.length_modifyHead, List.length_map,
      List.length_cons, List.length_nil, openingTokens, closingTokens]
    omega

end Config

end ScriptDebugger
