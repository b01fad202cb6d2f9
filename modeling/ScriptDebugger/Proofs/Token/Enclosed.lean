import ScriptDebugger.Proofs.Token.Inserted

/-!
# Text in parentheses

A closing brace is read alone, whatever stands before and behind it. So a stretch of
tokens that ends with one can be cut out of its text: between parentheses it is read
into the same tokens, moved to their new places (`ofText_parenthesize`).
-/

namespace ScriptDebugger

/-- A text in parentheses, as a statement of its own. -/
def parenthesize (text : String) : String := "(" ++ text ++ ");"

/-- The middle one of three parts of a text. -/
lemma sliceBytes_append (ds es fs : List Char) :
    sliceBytes (ds ++ es ++ fs) (byteLength ds) (byteLength ds + byteLength es) = es := by
  rw [sliceBytes, List.append_assoc, dropBytes_append, Nat.add_sub_cancel_left, takeBytes_append]

namespace Lexeme

variable {cs after rest : List Char} {s : Char} {l l' : Lexeme} {ls ls' : List Lexeme} {p : Punct}

/-- The character behind a run ends it. -/
lemma ends_of_run {p : Char → Bool} (whole : run p (cs ++ s :: after) = cs.length) :
    p s = false := by
  induction cs with
  | nil =>
    rw [List.nil_append, run_cons, List.length_nil] at whole
    by_contra inside
    rw [if_pos (Bool.not_eq_false _ ▸ inside)] at whole
    cases whole
  | cons c cs ih =>
    rw [List.cons_append, run_cons, List.length_cons] at whole
    split at whole
    case isTrue => exact ih (by omega)
    case isFalse => omega

/-- What a lexeme would take in does not come behind it. -/
lemma takesIn_of_ofChars {ds : List Char} (split : ofChars cs = l :: l' :: ls)
    (next : l'.chars = s :: ds) : l.kind.takesIn s = false := by
  obtain ⟨c, es, -, hextent⟩ := extent_of_ofChars split
  rw [List.flatMap_cons, next, List.cons_append] at hextent
  generalize ds ++ ls.flatMap chars = after at hextent
  by_contra takes
  rw [Bool.not_eq_false] at takes
  have trivia : (extent c (es ++ s :: after)).1.isTrivia = true := by
    rw [hextent]
    cases hk : l.kind with
    | blank | lineComment => rfl
    | _ => rw [hk] at takes; cases takes
  obtain ⟨-, h⟩ | ⟨-, h⟩ | ⟨-, h⟩ | ⟨fs, -, text, h⟩ | ⟨fs, -, -, -, h⟩ :=
    extent_trivia_cases trivia
  all_goals
    obtain ⟨kind, whole⟩ := Prod.mk.inj (hextent.symm.trans h)
    rw [kind] at takes
  · rw [LexemeKind.takesIn, ends_of_run whole.symm] at takes
    cases takes
  · cases takes
  · cases takes
  · cases es with
    | nil => cases whole
    | cons e es =>
      obtain ⟨rfl, rfl⟩ := List.cons.inj text
      have ends := ends_of_run (Nat.succ.inj whole).symm
      rw [LexemeKind.takesIn, ends] at takes
      cases takes
  · cases takes

/-- Up to a closing brace a text is read the same, whatever comes behind the brace. -/
theorem ofChars_before_brace {brace : Lexeme} (split : ofChars cs = ls ++ brace :: ls')
    (closing : brace.chars = ['\x7d']) (closed : ∀ l ∈ ls, l.kind.isOpen = false)
    (rest : List Char) :
    ofChars (ls.flatMap chars ++ '\x7d' :: rest) = ls ++ ofChars ('\x7d' :: rest) := by
  have separator : isSeparator '\x7d' = true := rfl
  rcases List.eq_nil_or_concat ls with rfl | ⟨before, l, rfl⟩
  · rfl
  · rw [List.concat_eq_append] at closed split ⊢
    obtain ⟨others, last⟩ := List.forall_mem_append.mp closed
    rw [List.append_assoc, List.singleton_append] at split
    have first := ofChars_of_append split
    have alone := ofChars_append_separator separator rest first (last l (List.mem_singleton_self l))
      (takesIn_of_ofChars first closing) (.inr (by decide))
    rw [List.flatMap_append, List.flatMap_singleton, List.append_assoc,
      ofChars_append_last separator rest split others, alone, List.append_assoc,
      List.singleton_append]

lemma extent_of_punct {c : Char} (h : (extent c cs).1 = .punct p) :
    extent c cs = punctExtent c cs := by
  have begins := begins_extent c cs
  rwa [h] at begins

/-- An operator is spelled in one way. -/
lemma chars_of_punct (first : ofChars cs = l :: ls) (hp : l.kind = .punct p) :
    l.chars = p.chars := by
  obtain ⟨c, ds, hl, hextent⟩ := extent_of_ofChars first
  rw [hp] at hextent
  have punct := (extent_of_punct (congrArg Prod.fst hextent)).symm.trans hextent
  rw [punctExtent] at punct
  split at punct
  case h_1 q hq =>
    obtain ⟨kind, length⟩ := Prod.mk.inj punct
    obtain rfl : q = p := by injection kind
    have found := List.find?_some hq
    have starts := List.isPrefixOf_iff_prefix.mp found
    have some : 0 < q.chars.length := by cases q <;> decide
    rw [← List.cons_append, ← hl] at starts
    have same : q.chars.length = l.chars.length := by
      rw [hl, List.length_cons]
      omega
    exact ((List.prefix_of_prefix_length_le starts (List.prefix_append l.chars _)
      (Nat.le_of_eq same)).eq_of_length same).symm
  case h_2 => split at punct <;> cases punct

lemma ofChars_closing :
    ofChars ['\x7d', ')', ';'] =
      [⟨.punct .rightBrace, ['\x7d']⟩, ⟨.punct .rightParen, [')']⟩, ⟨.punct .semicolon, [';']⟩] := by
  decide +kernel

/-- The text of a stretch of lexemes that ends with a closing brace, in parentheses. -/
lemma ofText_parenthesize {brace : Lexeme} {inner : String}
    (split : ofChars cs = ls ++ brace :: ls') (closing : brace.chars = ['\x7d'])
    (closed : ∀ l ∈ ls, l.kind.isOpen = false)
    (text : inner.toList = (ls ++ [brace]).flatMap chars) :
    ofText (parenthesize inner) = ⟨.punct .leftParen, ['(']⟩ :: (ls ++
      [⟨.punct .rightBrace, ['\x7d']⟩, ⟨.punct .rightParen, [')']⟩,
        ⟨.punct .semicolon, [';']⟩]) := by
  have inside := ofChars_before_brace split closing closed [')', ';']
  have whole : (parenthesize inner).toList =
      '(' :: (ls.flatMap chars ++ ['\x7d', ')', ';']) := by
    rw [parenthesize, String.toList_append, String.toList_append, text, List.flatMap_append,
      List.flatMap_singleton, closing, List.append_assoc, List.append_assoc]
    rfl
  have paren (cs : List Char) : extent '(' cs = (.punct .leftParen, 0) := rfl
  rw [ofText, whole, ofChars_cons, paren, List.take_zero, List.drop_zero, inside, ofChars_closing]

end Lexeme

namespace Token

/-- The text of a stretch of lexemes. -/
lemma toList_slice {text : String} {ls ms rest : List Lexeme}
    (split : Lexeme.ofText text = ls ++ (ms ++ rest)) :
    (Span.slice ⟨totalSize ls, totalSize ls + totalSize ms⟩ text).toList =
      ms.flatMap Lexeme.chars := by
  have whole := congrArg (List.flatMap Lexeme.chars) split
  rw [Lexeme.ofText, Lexeme.flatMap_chars_ofChars, List.flatMap_append, List.flatMap_append,
    ← List.append_assoc] at whole
  rw [Span.slice, String.toList_ofList, whole, totalSize, totalSize, sliceBytes_append]

variable {offset : Nat} {newline comment : Bool} {ls : List Lexeme} {us vs : List Token}
  {t : Token} {text : String}

/-- A token is read from a lexeme, and what is read before it does not depend on what comes
later. -/
lemma exists_lexeme (h : ofLexemes offset newline comment ls = .ok (us ++ t :: vs))
    (inside : t.kind.isEndOfInput = false) :
    ∃ before l behind, ls = before ++ l :: behind ∧ kindOf? l = .ok (some t.kind) ∧
      t.span = ⟨offset + totalSize before, offset + totalSize before + l.size⟩ ∧
      ofLexemes t.span.stop false false behind = .ok vs ∧
      ∀ ls', ofLexemes offset newline comment (before ++ l :: ls') =
        (ofLexemes t.span.stop false false ls').map (us ++ t :: ·) := by
  induction ls generalizing offset newline comment us with
  | nil =>
    rw [ofLexemes, Except.ok.injEq, List.singleton_eq_append_iff] at h
    rcases h with ⟨-, h⟩ | ⟨-, h⟩
    · obtain ⟨rfl, -⟩ := List.cons.inj h
      cases inside
    · cases h
  | cons l ls ih =>
    rcases ofLexemes_cons_cases h with ⟨kind, rest, hk, hrest, hts⟩ | ⟨hk, hrest⟩
    · rcases List.append_eq_cons_iff.mp hts with ⟨rfl, hts⟩ | ⟨us, rfl, rfl⟩
      · obtain ⟨rfl, rfl⟩ := List.cons.inj hts
        refine ⟨[], l, ls, rfl, hk, rfl, hrest, fun ls' => ?_⟩
        rw [List.nil_append, ofLexemes_cons, hk]
        rfl
      · obtain ⟨before, l', behind, rfl, hk', span, hvs, append⟩ := ih hrest
        refine ⟨l :: before, l', behind, rfl, hk', ?_, hvs, fun ls' => ?_⟩
        · rw [span, totalSize_cons, Nat.add_assoc offset]
        · rw [List.cons_append, ofLexemes_cons, hk]
          dsimp only
          rw [append]
          cases ofLexemes t.span.stop false false ls' <;> rfl
    · obtain ⟨before, l', behind, rfl, hk', span, hvs, append⟩ := ih hrest
      refine ⟨l :: before, l', behind, rfl, hk', ?_, hvs, fun ls' => ?_⟩
      · rw [span, totalSize_cons, Nat.add_assoc offset]
      · rw [List.cons_append, ofLexemes_cons, hk]
        exact append ls'

lemma kind_of_kindOf? {l : Lexeme} {p : Punct} (h : kindOf? l = .ok (some (.punct p))) :
    l.kind = .punct p := by
  obtain ⟨-, hk⟩ | ⟨x, -, -, hk⟩ | ⟨s, -, -, hk⟩ | ⟨q, hl, hk⟩ := kindOf?_some_cases h
  · have word := isWord_ofWord l.text
    rw [← hk] at word
    cases word
  · cases hk
  · cases hk
  · cases hk
    exact hl

/-- What closes a text in parentheses, from some byte on. -/
def closing (n : Nat) : List Token :=
  [⟨.punct .rightParen, ⟨n, n + 1⟩, false, false⟩,
    ⟨.punct .semicolon, ⟨n + 1, n + 2⟩, false, false⟩, ⟨.endOfInput, .point (n + 2), false, false⟩]

lemma ofLexemes_closing (n : Nat) :
    ofLexemes n false false [⟨.punct .rightParen, [')']⟩, ⟨.punct .semicolon, [';']⟩] =
      .ok (closing n) := rfl

/-- Where the bytes of a text go that is cut out from byte `p` on and put in parentheses. -/
def reseat (p n : Nat) : Nat := n + 1 - p

lemma reseat_add (p n : Nat) : reseat p (p + n) = 1 + n := by
  rw [reseat]
  omega

/-- A stretch of tokens that ends with a closing brace is read into the same tokens when its text
stands in parentheses. The marks of the first token are gone. -/
theorem ofText_parenthesize {before behind : List Token} {first close : Token}
    (lexed : ofText text = .ok (before ++ first :: (us ++ close :: behind)))
    (inside : first.kind.isEndOfInput = false) (brace : close.kind = .punct .rightBrace) :
    ofText (parenthesize (Span.slice ⟨first.span.start, close.span.stop⟩ text)) =
      .ok (⟨.punct .leftParen, ⟨0, 1⟩, false, false⟩ ::
        ⟨first.kind, first.span.move (reseat first.span.start), false, false⟩ ::
        (us ++ close :: closing close.span.stop).map (move (reseat first.span.start))) := by
  have closes : close.kind.isEndOfInput = false := by rw [brace]; rfl
  obtain ⟨ls, l, rest, split, hl, span, later, -⟩ := exists_lexeme lexed inside
  obtain ⟨ms, b, ls', rfl, hb, span', -, append⟩ := exists_lexeme later closes
  rw [brace] at hb
  rw [Nat.zero_add] at span
  have closed : ∀ k ∈ l :: ms, k.kind.isOpen = false := by
    rw [ofText, split, ← List.cons_append, ← List.append_assoc] at lexed
    have all := closed_of_ofLexemes lexed
    exact fun k hk => all k (List.mem_append_left _ (List.mem_append_right _ hk))
  have inner : Lexeme.ofChars _ = (l :: ms) ++ b :: ls' := Lexeme.ofChars_of_append split
  have spelled : b.chars = ['\x7d'] :=
    Lexeme.chars_of_punct (Lexeme.ofChars_of_append inner) (kind_of_kindOf? hb)
  have braced : b = ⟨.punct .rightBrace, ['\x7d']⟩ := by
    rw [← kind_of_kindOf? hb, ← spelled]
  have stop : close.span.stop = totalSize ls + totalSize (l :: ms ++ [b]) := by
    rw [span', span]
    simp only [totalSize_append, totalSize_cons, totalSize_nil, Nat.add_assoc, Nat.add_zero]
  have slice : (Span.slice ⟨first.span.start, close.span.stop⟩ text).toList =
      (l :: ms ++ [b]).flatMap Lexeme.chars := by
    have stretch : Lexeme.ofText text = ls ++ ((l :: ms ++ [b]) ++ ls') := by simp [split]
    rw [stop, span, toList_slice stretch]
  have read := Lexeme.ofText_parenthesize inner spelled closed slice
  rw [braced] at append
  have shift (k : Nat) : reseat first.span.start (first.span.stop + k) = 1 + l.size + k := by
    rw [span, Nat.add_assoc, reseat_add, Nat.add_assoc]
  have moved := ofLexemes_move shift ((append _).trans (congrArg _ (ofLexemes_closing _)))
  have head : first.span.move (reseat first.span.start) = ⟨1, 1 + l.size⟩ := by
    have first : reseat (totalSize ls) (totalSize ls) = 1 := reseat_add _ 0
    rw [span, Span.move, reseat_add, first]
  have size : 0 + Lexeme.size ⟨.punct .leftParen, ['(']⟩ = 1 := rfl
  rw [ofText, read, ofLexemes_cons, size]
  dsimp only [kindOf?]
  rw [List.cons_append, ofLexemes_cons, hl, head]
  dsimp only
  rw [moved]
  rfl

end Token

end ScriptDebugger
