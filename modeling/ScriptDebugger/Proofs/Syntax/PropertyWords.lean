import ScriptDebugger.Proofs.Syntax.Allocation
import ScriptDebugger.Proofs.Syntax.MovedNumbering
import ScriptDebugger.Proofs.Syntax.Printing
import ScriptDebugger.Proofs.Token.Moved

/-!
# Words as property names

A word is read whole before any character that no word has (`ofChars_word`), and what
token it is depends on the word alone. Behind a point and as the key of an object an
identifier and a reserved word name a property; a keyword is refused there
(`Tree.words_name_properties`).
-/

namespace ScriptDebugger

namespace Lexeme

variable {w cs : List Char} {s : Char}

/-- A letter, an underscore or a dollar sign, and further ones or digits. -/
def isWord : List Char → Bool
  | [] => false
  | c :: cs => isWordStart c && cs.all isWordPart

lemma isWord_cases (h : isWord w = true) :
    ∃ c cs, w = c :: cs ∧ isWordStart c = true ∧ ∀ d ∈ cs, isWordPart d = true := by
  cases w with
  | nil => cases h
  | cons c cs => simpa [isWord] using h

lemma extent_word {c : Char} (start : isWordStart c = true) (parts : ∀ d ∈ w, isWordPart d = true)
    (ends : isWordPart s = false) : extent c (w ++ s :: cs) = (.word, w.length) := by
  have blank : isBlank c = false := by
    by_contra blank
    rcases blank_cases (Bool.not_eq_false _ ▸ blank) with rfl | rfl | rfl | rfl <;> cases start
  have whole : run isWordPart (w ++ s :: cs) = w.length := by
    rw [run, List.takeWhile_append_of_pos parts, List.takeWhile_cons, ends]
    simp
  rw [extent_of_ne (ne_of_isWordStart start rfl) (ne_of_isWordStart start rfl)
    (ne_of_isWordStart start rfl), blank, start, whole]
  rfl

/-- A word is read whole before what no word has. -/
lemma ofChars_word (word : isWord w = true) (ends : isWordPart s = false) (cs : List Char) :
    ofChars (w ++ s :: cs) = ⟨.word, w⟩ :: ofChars (s :: cs) := by
  obtain ⟨c, ds, rfl, start, parts⟩ := isWord_cases word
  exact ofChars_eq_cons (l := ⟨.word, c :: ds⟩) rfl (extent_word start parts ends)

lemma extent_point (noDigit : cs.head?.any Number.isDigit = false) :
    extent '.' cs = (.punct .dot, 0) := by
  rw [extent_of_ne (by decide) (by decide) (by decide), noDigit]
  rfl

/-- The first lexemes of a word behind a name and a point. -/
lemma ofChars_access (word : isWord w = true) :
    ofChars ('o' :: '.' :: (w ++ [';'])) =
      [⟨.word, ['o']⟩, ⟨.punct .dot, ['.']⟩, ⟨.word, w⟩, ⟨.punct .semicolon, [';']⟩] := by
  obtain ⟨c, ds, rfl, start, -⟩ := isWord_cases word
  have noDigit : (c :: ds ++ [';']).head?.any Number.isDigit = false := by
    simpa using isDigit_of_isWordStart start
  have name := ofChars_word (w := ['o']) (s := '.') rfl rfl (c :: ds ++ [';'])
  rw [List.singleton_append] at name
  rw [name, ofChars_cons, extent_point noDigit, List.take_zero, List.drop_zero,
    ofChars_word word rfl]
  have stop : ofChars [';'] = [⟨.punct .semicolon, [';']⟩] := by decide +kernel
  rw [stop]

lemma ofChars_object (word : isWord w = true) :
    ofChars ('(' :: '\x7b' :: (w ++ ": 1\x7d);".toList)) =
      [⟨.punct .leftParen, ['(']⟩, ⟨.punct .leftBrace, ['\x7b']⟩, ⟨.word, w⟩,
        ⟨.punct .colon, [':']⟩, ⟨.blank, [' ']⟩, ⟨.number, ['1']⟩, ⟨.punct .rightBrace, ['\x7d']⟩,
        ⟨.punct .rightParen, [')']⟩, ⟨.punct .semicolon, [';']⟩] := by
  have rest : ofChars ": 1\x7d);".toList =
      [⟨.punct .colon, [':']⟩, ⟨.blank, [' ']⟩, ⟨.number, ['1']⟩, ⟨.punct .rightBrace, ['\x7d']⟩,
        ⟨.punct .rightParen, [')']⟩, ⟨.punct .semicolon, [';']⟩] := by decide +kernel
  have paren (cs : List Char) : extent '(' cs = (.punct .leftParen, 0) := rfl
  have brace (cs : List Char) : extent '\x7b' cs = (.punct .leftBrace, 0) := rfl
  have inner := ofChars_word word (s := ':') rfl " 1\x7d);".toList
  rw [ofChars_cons, paren, List.take_zero, List.drop_zero, ofChars_cons, brace, List.take_zero,
    List.drop_zero]
  refine congrArg (_ :: _ :: ·) (inner.trans ?_)
  exact congrArg (_ :: ·) rest

end Lexeme

namespace Token

variable {w : String}

/-- `o.w;` in tokens. -/
def accessTokens (w : String) : List Token :=
  let stop := 2 + w.utf8ByteSize
  [⟨.ident "o", ⟨0, 1⟩, false, false⟩, ⟨.punct .dot, ⟨1, 2⟩, false, false⟩,
    ⟨ofWord w, ⟨2, stop⟩, false, false⟩, ⟨.punct .semicolon, ⟨stop, stop + 1⟩, false, false⟩,
    ⟨.endOfInput, .point (stop + 1), false, false⟩]

lemma size_word (w : String) : Lexeme.size ⟨.word, w.toList⟩ = w.utf8ByteSize :=
  byteLength_toList w

lemma ofText_access (word : Lexeme.isWord w.toList = true) :
    ofText ("o." ++ w ++ ";") = .ok (accessTokens w) := by
  have chars : ("o." ++ w ++ ";").toList = 'o' :: '.' :: (w.toList ++ [';']) := by simp
  have kind : kindOf? ⟨.word, w.toList⟩ = .ok (some (ofWord w)) := by
    simp [kindOf?, Lexeme.text]
  rw [ofText, Lexeme.ofText, chars, Lexeme.ofChars_access word]
  simp only [ofLexemes_cons, kind, size_word]
  rfl

/-- `({w: 1});` in tokens. -/
def objectTokens (w : String) (x : Float) : List Token :=
  let stop := 2 + w.utf8ByteSize
  [⟨.punct .leftParen, ⟨0, 1⟩, false, false⟩, ⟨.punct .leftBrace, ⟨1, 2⟩, false, false⟩,
    ⟨ofWord w, ⟨2, stop⟩, false, false⟩, ⟨.punct .colon, ⟨stop, stop + 1⟩, false, false⟩,
    ⟨.number x, ⟨stop + 2, stop + 3⟩, false, false⟩,
    ⟨.punct .rightBrace, ⟨stop + 3, stop + 4⟩, false, false⟩,
    ⟨.punct .rightParen, ⟨stop + 4, stop + 5⟩, false, false⟩,
    ⟨.punct .semicolon, ⟨stop + 5, stop + 6⟩, false, false⟩,
    ⟨.endOfInput, .point (stop + 6), false, false⟩]

lemma ofText_object (word : Lexeme.isWord w.toList = true) :
    ∃ x, ofText ("(\x7b" ++ w ++ ": 1\x7d);") = .ok (objectTokens w x) := by
  have chars : ("(\x7b" ++ w ++ ": 1\x7d);").toList =
      '(' :: '\x7b' :: (w.toList ++ ": 1\x7d);".toList) := by simp
  have kind : kindOf? ⟨.word, w.toList⟩ = .ok (some (ofWord w)) := by
    simp [kindOf?, Lexeme.text]
  obtain ⟨x, number⟩ : ∃ x, kindOf? ⟨.number, ['1']⟩ = .ok (some (.number x)) := ⟨_, rfl⟩
  refine ⟨x, ?_⟩
  rw [ofText, Lexeme.ofText, chars, Lexeme.ofChars_object word]
  simp only [ofLexemes_cons, kind, size_word, number]
  rfl

end Token

namespace Grammar

open Cursor

variable {n : Nat} {ks : List TokenKind} {q : Phrase} {word : TokenKind} {name : String}

/-- An object literal with one property. -/
lemma stands_object (key : ∀ c : Cursor, c.kind = word → propertyKey c = .ok (name, c.advance))
    (h : Stands n ks q) :
    Stands 12 (.punct .leftBrace :: word :: .punct .colon :: (ks ++ [.punct .rightBrace]))
      (.of (.objectExpression [.of (.property name q)])) := by
  intro c c' passes
  simp only [passes_cons, passes_append, passes_nil] at passes
  obtain ⟨brace, -, token, -, colon, -, c₁, value, close, -, rfl⟩ := passes
  obtain ⟨p, rfl, reads⟩ := h _ _ value
  let property : Phrase := ⟨c.advance.span.merge p.span, .property name p⟩
  have bare : property.bare = .of (.property name p.bare) := Phrase.bare_mk _ _
  refine ⟨⟨c₁.advance.spanFrom c.span, .objectExpression [property]⟩, ?_,
    .of_primary (by omega) ?_⟩
  · rw [← bare]
    exact Phrase.bare_mk _ _
  intro _
  obtain ⟨d, value⟩ := reads.findsAssignment (goesOn_of_kind close)
  have more : c.advance.at? .rightBrace = false := by
    by_contra brace
    have refused : propertyKey c.advance = .error (c.advance.unexpected .propertyKey) := by
      rw [propertyKey, kind_of_at? (Bool.not_eq_false _ ▸ brace)]
    cases refused.symm.trans (key _ token)
  have comma : c₁.at? .comma = false := not_at?_of_kind close (by decide)
  exact ⟨d + 2, .primary_object brace
    (.properties_last more (key _ token) (at?_of_kind colon) value comma) (at?_of_kind close)⟩

/-- What can stand as an operand is a program with a semicolon behind it. -/
lemma Stands.program {ts : List Token} {semicolon last : Token} {size : Nat}
    (h : Stands n (ts.map Token.kind) q) (sameLine : ∀ t ∈ ts, t.newlineBefore = false)
    (inside : ∀ t ∈ ts, t.kind.isEndOfInput = false)
    (begins : beginsExpression (Cursor.start (ts ++ [semicolon, last])).kind = true)
    (stop : semicolon.kind = .punct .semicolon) (ends : last.kind = .endOfInput) :
    ∃ p s, program size (ts ++ [semicolon, last]) =
      .ok ⟨⟨0, size⟩, .program [⟨s, .expressionStatement p⟩]⟩ ∧ p.bare = q := by
  obtain ⟨n, passes⟩ : ∃ n, Passes (ts.map Token.kind) ⟨ts ++ [semicolon, last], 0⟩
      ⟨[semicolon, last], n⟩ := passes_of_tokens sameLine inside 0
  obtain ⟨p, bare, reads⟩ := h _ _ passes
  have stop : (Cursor.mk [semicolon, last] n).kind = .punct .semicolon := stop
  have found := reads.findsAssignment (goesOn_of_kind stop)
  have atEnd : (Cursor.mk [semicolon, last] n).advance.atEnd = true := by
    rw [advance_of_tokens rfl (congrArg TokenKind.isEndOfInput stop)]
    exact congrArg TokenKind.isEndOfInput ends
  exact ⟨p, _, program_of_assignment found begins stop atEnd, bare⟩

variable {w : String} {k : Keyword} {size : Nat}

/-- The token of a word that is no keyword names a property. -/
lemma ofWord_cases (plain : Keyword.ofText? w = none) :
    Token.ofWord w = .ident w ∨ Token.ofWord w = .reserved w := by
  rw [Token.ofWord, plain]
  cases isReserved w with
  | true => exact .inr rfl
  | false => exact .inl rfl

lemma ofWord_keyword (h : Keyword.ofText? w = some k) : Token.ofWord w = .keyword k := by
  rw [Token.ofWord, h]

lemma program_access (plain : Keyword.ofText? w = none) :
    ∃ p s, program size (Token.accessTokens w) =
        .ok ⟨⟨0, size⟩, .program [⟨s, .expressionStatement p⟩]⟩ ∧
      p.bare = .of (.memberExpression (.of (.identifier "o")) (.of (.identifier w)) false) := by
  have name : Stands 11 [.ident "o"] _ := (stands_identifier "o").loosen (by omega)
  have reads : Stands _ (((Token.accessTokens w).take 3).map Token.kind) _ :=
    stands_member name (ofWord_cases plain)
  refine reads.program ?_ ?_ rfl rfl rfl
  · simp [Token.accessTokens]
  · simpa [Token.accessTokens, TokenKind.isEndOfInput] using Token.isEndOfInput_ofWord w

lemma program_object (plain : Keyword.ofText? w = none) (x : Float) :
    ∃ p s, program size (Token.objectTokens w x) =
        .ok ⟨⟨0, size⟩, .program [⟨s, .expressionStatement p⟩]⟩ ∧
      p.bare = .of (.objectExpression [.of (.property w (.of (.literal (.number x))))]) := by
  have key (c : Cursor) (token : c.kind = Token.ofWord w) :
      propertyKey c = .ok (w, c.advance) := by
    rcases ofWord_cases plain with h | h <;> simp only [propertyKey, token, h]
  have reads : Stands _ (((Token.objectTokens w x).take 7).map Token.kind) _ :=
    (stands_object key (stands_literal (.number x))).paren
  refine reads.program ?_ ?_ rfl rfl rfl
  · simp [Token.objectTokens]
  · simpa [Token.objectTokens, TokenKind.isEndOfInput] using Token.isEndOfInput_ofWord w

lemma program_access_keyword (keyword : Keyword.ofText? w = some k) :
    program size (Token.accessTokens w) = .error
      ⟨.unexpected .propertyName (.keyword k), ⟨2, 2 + w.utf8ByteSize⟩⟩ := by
  rw [Token.accessTokens, ofWord_keyword keyword]
  rfl

lemma program_object_keyword (keyword : Keyword.ofText? w = some k) (x : Float) :
    program size (Token.objectTokens w x) = .error
      ⟨.unexpected .propertyKey (.keyword k), ⟨2, 2 + w.utf8ByteSize⟩⟩ := by
  rw [Token.objectTokens, ofWord_keyword keyword]
  rfl

end Grammar

namespace Phrase

/-- What the nodes of a phrase are, by number. -/
def kinds (p : Phrase) : List (NodeKind NodeId) :=
  (p.number (fun _ => none) #[]).toList.map Node.kind

/-- A program that is one expression. -/
def soleExpression (p : Phrase) : Phrase := of (.program [of (.expressionStatement p)])

lemma kinds_access (w : String) :
    (soleExpression (of (.memberExpression (of (.identifier "o")) (of (.identifier w))
      false))).kinds =
      [.identifier "o", .identifier w, .memberExpression 0 1 false, .expressionStatement 2,
        .program [3]] := by
  simp [kinds, soleExpression, of, number_eq, numberAll, children, kind, span, NodeKind.children,
    NodeKind.fill, NodeKind.pop, Node.fresh]

lemma kinds_object (w : String) (x : Float) :
    (soleExpression (of (.objectExpression [of (.property w
      (of (.literal (.number x))))]))).kinds =
      [.literal (.number x), .property w 0, .objectExpression [1], .expressionStatement 2,
        .program [3]] := by
  simp [kinds, soleExpression, of, number_eq, numberAll, children, kind, span, NodeKind.children,
    NodeKind.fill, NodeKind.pop, Node.fresh]

end Phrase

namespace Tree

/-- What the nodes are, by number. -/
def kinds (t : Tree) : List (NodeKind NodeId) := t.nodes.toList.map Node.kind

lemma kinds_link (t : Tree) (root : NodeId) : (t.link root).kinds = t.kinds := by
  refine List.ext_getElem? fun id => ?_
  simp only [kinds, List.getElem?_map, Array.getElem?_toList, getElem?_link, Option.map_map]
  rfl

/-- The nodes do not depend on where the phrase stands. -/
lemma kinds_ofPhrase (table? : Option LineTable) (sourceType : SourceType) (p : Phrase) :
    (ofPhrase table? sourceType p).kinds = p.bare.kinds := by
  have bare : p.bare = p.mapSpans (Span.move fun _ => 0) :=
    congrFun (Phrase.move_eq_mapSpans fun _ => 0) p
  have nodes : (p.mapSpans (Span.move fun _ => 0)).number (fun _ => none) #[] =
      (p.number (fun s => table?.map (·.location s)) #[]).map
        (Node.mapSpan (Span.move fun _ => 0) fun _ => none) := by
    rw [← Phrase.number_mapSpans, Array.map_empty]
  rw [← bare] at nodes
  rw [ofPhrase, kinds_link, kinds, Phrase.kinds, nodes, Array.toList_map, List.map_map]
  rfl

/-- The root is the last node. -/
lemma root_ofPhrase (table? : Option LineTable) (sourceType : SourceType) (p : Phrase) :
    (ofPhrase table? sourceType p).root =
      some ((ofPhrase table? sourceType p).kinds.length - 1) := by
  rw [ofPhrase, kinds_link, kinds, List.length_map, Array.length_toList]
  rfl

/-- The tree of a text that is one expression. -/
lemma exists_of_expression {text : String} {ts : List Token} {p q : Phrase} {s : Span}
    (lexed : Token.ofText text = .ok ts)
    (parsed : Grammar.program text.utf8ByteSize ts =
      .ok ⟨⟨0, text.utf8ByteSize⟩, .program [⟨s, .expressionStatement p⟩]⟩)
    (bare : p.bare = q) (options : ParseOptions) :
    ∃ t, Tree.parse text options = .ok t ∧ t.root = some (t.kinds.length - 1) ∧
      t.kinds = q.soleExpression.kinds := by
  have phrase : Phrase.parse text =
      .ok ⟨⟨0, text.utf8ByteSize⟩, .program [⟨s, .expressionStatement p⟩]⟩ := by
    rw [Phrase.parse, lexed]
    exact parsed
  have statement : (Phrase.mk s (.expressionStatement p)).bare = .of (.expressionStatement q) := by
    rw [← bare]
    exact Phrase.bare_mk _ _
  refine ⟨_, parse_eq_ok.mpr ⟨_, phrase, rfl⟩, root_ofPhrase _ _ _, ?_⟩
  rw [kinds_ofPhrase, Phrase.bare_mk, Phrase.soleExpression, ← statement]
  rfl

variable {w : String}

/-- Behind a point and as a key every word that is no keyword is the name of a property; a keyword
is refused in both places. -/
theorem words_name_properties (word : Lexeme.isWord w.toList = true) (options : ParseOptions) :
    match Keyword.ofText? w with
    | none =>
      (∃ t, Tree.parse ("o." ++ w ++ ";") options = .ok t ∧ t.root = some 4 ∧
        t.kinds = [.identifier "o", .identifier w, .memberExpression 0 1 false,
          .expressionStatement 2, .program [3]]) ∧
      ∃ t x, Tree.parse ("(\x7b" ++ w ++ ": 1\x7d);") options = .ok t ∧ t.root = some 4 ∧
        t.kinds = [.literal (.number x), .property w 0, .objectExpression [1],
          .expressionStatement 2, .program [3]]
    | some k =>
      Tree.parse ("o." ++ w ++ ";") options = .error
        ⟨.unexpected .propertyName (.keyword k), ⟨2, 2 + w.utf8ByteSize⟩⟩ ∧
      Tree.parse ("(\x7b" ++ w ++ ": 1\x7d);") options = .error
        ⟨.unexpected .propertyKey (.keyword k), ⟨2, 2 + w.utf8ByteSize⟩⟩ := by
  have access := Token.ofText_access word
  obtain ⟨x, object⟩ := Token.ofText_object word
  cases keyword : Keyword.ofText? w with
  | some k =>
    simp only [Tree.parse_eq, Phrase.parse, access, object, Grammar.program_access_keyword keyword,
      Grammar.program_object_keyword keyword]
    exact ⟨rfl, rfl⟩
  | none =>
    obtain ⟨p, s, parsed, bare⟩ := Grammar.program_access keyword
    obtain ⟨t, tree, root, kinds⟩ := exists_of_expression access parsed bare options
    obtain ⟨p', s', parsed', bare'⟩ := Grammar.program_object keyword x
    obtain ⟨t', tree', root', kinds'⟩ := exists_of_expression object parsed' bare' options
    rw [Phrase.kinds_access] at kinds
    rw [Phrase.kinds_object] at kinds'
    rw [kinds] at root
    rw [kinds'] at root'
    exact ⟨⟨t, tree, root, kinds⟩, t', x, tree', root', kinds'⟩

/-- A keyword is a word, too. -/
theorem keyword_names_no_property :
    Lexeme.isWord "new".toList = true ∧ ¬ ∃ t, Tree.parse "o.new;" = .ok t := by
  refine ⟨by decide, ?_⟩
  rintro ⟨t, parsed⟩
  have refused : (Tree.parse "o.new;").toOption.isNone = true := by decide +kernel
  rw [parsed] at refused
  cases refused

/-- A reserved word. -/
theorem words_name_properties_reserved :
    Lexeme.isWord "class".toList = true ∧
      (∃ t, Tree.parse "o.class;" = .ok t ∧ t.root = some 4 ∧
        t.kinds = [.identifier "o", .identifier "class", .memberExpression 0 1 false,
          .expressionStatement 2, .program [3]]) ∧
      ∃ t x, Tree.parse "(\x7bclass: 1\x7d);" = .ok t ∧ t.root = some 4 ∧
        t.kinds = [.literal (.number x), .property "class" 0, .objectExpression [1],
          .expressionStatement 2, .program [3]] := by
  have named := words_name_properties (w := "class") (by decide) {}
  have plain : Keyword.ofText? "class" = none := by decide
  rw [plain] at named
  exact ⟨by decide, named⟩

end Tree

end ScriptDebugger
