import ScriptDebugger.Proofs.Token.Moved

/-!
# Strings between quotes

Where a string ends is decided before its escapes are read. Both go by the same
rule, that a backslash takes the next character with it (`StringBody`), so a string
that is closed has no backslash left over at its end, and a text whose special
characters are escaped is read back as it was (`strings_read_back`).
-/

namespace ScriptDebugger

/-- What may stand between the quotes of a string: a character that is neither a quote nor a line
break, or a backslash with any character at all. -/
inductive StringBody (quote : Char) : List Char → Prop
  | nil : StringBody quote []
  | plain {c : Char} {cs : List Char} (noEscape : c ≠ '\\') (inside : c ≠ quote)
      (inLine : Lexeme.isLineBreak c = false) (rest : StringBody quote cs) :
      StringBody quote (c :: cs)
  | escape {c : Char} {cs : List Char} (rest : StringBody quote cs) :
      StringBody quote ('\\' :: c :: cs)

namespace Lexeme

variable {quote : Char} {cs body : List Char}

lemma stringTail_escape (quote c : Char) (cs : List Char) :
    stringTail quote ('\\' :: c :: cs) = ((stringTail quote cs).1, (stringTail quote cs).2 + 2) := by
  rw [stringTail]

/-- A closed string is a body and the quote that ends it. -/
lemma exists_body_of_closed (closed : (stringTail quote cs).1 = true) :
    ∃ body, StringBody quote body ∧ cs.take (stringTail quote cs).2 = body ++ [quote] := by
  fun_induction stringTail quote cs with
  | case1 => cases closed
  | case2 => cases closed
  | case3 c cs closed' n tail ih =>
    rw [tail] at ih
    obtain ⟨body, inner, hbody⟩ := ih closed
    exact ⟨'\\' :: c :: body, .escape inner, by simpa using hbody⟩
  | case4 => cases closed
  | case5 cs noTail noEscape inLine => exact ⟨[], .nil, rfl⟩
  | case6 c cs noTail noEscape inLine inside closed' n tail ih =>
    rw [tail] at ih
    obtain ⟨body, inner, hbody⟩ := ih closed
    have plain : c ≠ '\\' := by
      intro hc
      cases cs with
      | nil => exact noTail hc rfl
      | cons d ds => exact noEscape d ds hc rfl
    refine ⟨c :: body, .plain plain inside (Bool.not_eq_true _ ▸ inLine) inner, ?_⟩
    rw [List.take_succ_cons, hbody, List.cons_append]

/-- A body is closed by the first quote behind it. -/
lemma stringTail_of_body (h : StringBody quote body) (quoted : isQuote quote = true)
    (rest : List Char) :
    stringTail quote (body ++ quote :: rest) = (true, body.length + 1) := by
  induction h with
  | nil =>
    have noEscape : quote ≠ '\\' := by
      rintro rfl
      cases quoted
    have inLine : isLineBreak quote = false := by
      simp only [isQuote, Bool.or_eq_true, beq_iff_eq] at quoted
      rcases quoted with rfl | rfl <;> rfl
    simp [stringTail_cons noEscape, inLine]
  | plain noEscape inside inLine _ ih =>
    rw [List.cons_append, stringTail_cons noEscape, ih]
    simp [inLine, inside]
  | escape _ ih => rw [List.cons_append, List.cons_append, stringTail_escape, ih]; rfl

lemma extent_quote (quoted : isQuote quote = true) (cs : List Char) :
    extent quote cs =
      (if (stringTail quote cs).1 then .string else .openString, (stringTail quote cs).2) := by
  simp only [isQuote, Bool.or_eq_true, beq_iff_eq] at quoted
  rcases quoted with rfl | rfl <;> rfl

/-- A string begins with a quote. -/
lemma isQuote_of_string {c : Char} (string : (extent c cs).1 = .string) : isQuote c = true := by
  have begins := begins_extent c cs
  rwa [string] at begins

lemma exists_extent_of_mem {l : Lexeme} (h : l ∈ ofChars cs) :
    ∃ c ds, l = ⟨(extent c ds).1, c :: ds.take (extent c ds).2⟩ := by
  fun_induction ofChars cs with
  | case1 => cases h
  | case2 c ds kind n hextent ih =>
    rcases List.mem_cons.mp h with rfl | h
    · exact ⟨c, ds, by rw [hextent]⟩
    · exact ih h

/-- A string lexeme is a body between two quotes. -/
lemma exists_body_of_string {l : Lexeme} (mem : l ∈ ofChars cs) (string : l.kind = .string) :
    ∃ quote body, StringBody quote body ∧ l.chars = quote :: (body ++ [quote]) := by
  obtain ⟨quote, ds, rfl⟩ := exists_extent_of_mem mem
  have starts := extent_quote (isQuote_of_string string) ds
  have closed : (stringTail quote ds).1 = true := by
    by_contra h
    simp [starts, h] at string
  obtain ⟨body, inner, hbody⟩ := exists_body_of_closed closed
  refine ⟨quote, body, inner, ?_⟩
  rw [starts, hbody]

end Lexeme

namespace Token

variable {quote : Char} {body : List Char}

/-- The escape that stands for a character between the quotes of a string, or the character
itself. -/
def escaped (quote c : Char) : List Char :=
  if c = '\\' ∨ c = quote then ['\\', c]
  else if c = '\n' then ['\\', 'n']
  else if c = '\r' then ['\\', 'r']
  else [c]

/-- The text of a string that holds `s`. -/
def quoted (quote : Char) (s : String) : String :=
  String.ofList (quote :: (s.toList.flatMap (escaped quote) ++ [quote]))

lemma stringBody_escaped (quote : Char) (cs : List Char) :
    StringBody quote (cs.flatMap (escaped quote)) := by
  induction cs with
  | nil => exact .nil
  | cons c cs ih =>
    rw [List.flatMap_cons, escaped]
    split
    · exact .escape ih
    split
    · exact .escape ih
    split
    · exact .escape ih
    · rename_i special feed carriage
      rw [not_or] at special
      refine .plain special.1 special.2 ?_ ih
      simp [Lexeme.isLineBreak, feed, carriage]

lemma unescape_plain {c : Char} (noEscape : c ≠ '\\') (cs : List Char) :
    unescape (c :: cs) = (unescape cs).map (c :: ·) := by
  rw [unescape]
  · rintro ⟨⟩ -
    exact noEscape rfl
  · rintro d ds ⟨⟩ -
    exact noEscape rfl

lemma unescape_escape {c d : Char} (stands : escape? c = some d) (cs : List Char) :
    unescape ('\\' :: c :: cs) = (unescape cs).map (d :: ·) := by
  rw [unescape, stands]

/-- Escaping is undone. -/
lemma unescape_flatMap_escaped (hq : Lexeme.isQuote quote = true) (cs : List Char) :
    unescape (cs.flatMap (escaped quote)) = .ok cs := by
  have self : ∀ c, c = '\\' ∨ c = quote → escape? c = some c := by
    simp only [Lexeme.isQuote, Bool.or_eq_true, beq_iff_eq] at hq
    rintro c (rfl | rfl)
    · rfl
    · rcases hq with rfl | rfl <;> rfl
  induction cs with
  | nil => rw [List.flatMap_nil, unescape]
  | cons c cs ih =>
    rw [List.flatMap_cons, escaped]
    split
    case isTrue special =>
      rw [List.cons_append, List.singleton_append, unescape_escape (self c special), ih]
      rfl
    case isFalse special =>
      rw [not_or] at special
      split
      · rename_i feed
        rw [feed, List.cons_append, List.singleton_append, unescape_escape rfl, ih]
        rfl
      split
      · rename_i carriage
        rw [carriage, List.cons_append, List.singleton_append, unescape_escape rfl, ih]
        rfl
      · rw [List.singleton_append, unescape_plain special.1, ih]
        rfl

/-- What can be wrong with the body of a string is an escape that stands for nothing. -/
lemma unescape_of_body (h : StringBody quote body) :
    (∃ cs, unescape body = .ok cs) ∨ ∃ c, unescape body = .error (.invalidEscape c) := by
  induction h with
  | nil => exact .inl ⟨[], by rw [unescape]⟩
  | plain noEscape _ _ _ ih =>
    rw [unescape_plain noEscape]
    rcases ih with ⟨cs, h⟩ | ⟨c, h⟩
    · exact .inl ⟨_, by rw [h]; rfl⟩
    · exact .inr ⟨c, by rw [h]; rfl⟩
  | @escape c cs rest ih =>
    cases stands : escape? c with
    | none => exact .inr ⟨c, by rw [unescape, stands]⟩
    | some d =>
      rw [unescape_escape stands]
      rcases ih with ⟨cs, h⟩ | ⟨c, h⟩
      · exact .inl ⟨_, by rw [h]; rfl⟩
      · exact .inr ⟨c, by rw [h]; rfl⟩

lemma readString_quoted (quote : Char) (body : List Char) :
    readString (quote :: (body ++ [quote])) = (unescape body).map String.ofList := by
  rw [readString, List.drop_succ_cons, List.drop_zero, List.dropLast_concat]

/-- A text between quotes whose special characters are escaped is one string, and that is the text.
The other way round, a string lexeme has a value unless it has an invalid escape in it. -/
theorem strings_read_back :
    (∀ (quote : Char) (s : String), quote = '"' ∨ quote = '\'' →
      let text := quoted quote s
      ofText text = .ok [⟨.string s, ⟨0, text.utf8ByteSize⟩, false, false⟩,
        ⟨.endOfInput, .point text.utf8ByteSize, false, false⟩]) ∧
    ∀ text, ∀ l ∈ Lexeme.ofText text, l.kind = .string →
      (∃ s, kindOf? l = .ok (some (.string s))) ∨ ∃ c, kindOf? l = .error (.invalidEscape c) := by
  constructor
  · intro quote s hq text
    have hq : Lexeme.isQuote quote = true := by
      rcases hq with rfl | rfl <;> rfl
    set body := s.toList.flatMap (escaped quote) with hbody
    have chars : text.toList = quote :: (body ++ [quote]) := String.toList_ofList
    have closed := Lexeme.stringTail_of_body (stringBody_escaped quote s.toList) hq []
    have split : Lexeme.ofChars text.toList = [⟨.string, text.toList⟩] := by
      rw [chars, Lexeme.ofChars_cons, Lexeme.extent_quote hq, closed, if_pos rfl,
        List.take_of_length_le (by simp [hbody]), List.drop_of_length_le (by simp [hbody]),
        Lexeme.ofChars_nil]
    have size : byteLength text.toList = text.utf8ByteSize := byteLength_toList text
    have read : kindOf? ⟨.string, text.toList⟩ = .ok (some (.string s)) := by
      simp only [kindOf?]
      rw [chars, readString_quoted, unescape_flatMap_escaped hq]
      simp [Except.map]
    rw [ofText, Lexeme.ofText, split, ofLexemes_cons, read]
    simp [Lexeme.size, size, ofLexemes, Except.map]
  · intro text l mem string
    obtain ⟨quote, body, inner, chars⟩ := Lexeme.exists_body_of_string mem string
    have read : kindOf? l = (readString l.chars).map fun s => some (.string s) := by
      simp only [kindOf?, string]
    rw [read, chars, readString_quoted]
    rcases unescape_of_body inner with ⟨cs, h⟩ | ⟨c, h⟩
    · left
      exact ⟨_, by rw [h]; rfl⟩
    · right
      exact ⟨c, by rw [h]; rfl⟩

/-- A quote, a line feed and a backslash in a string, and an escape that stands for nothing. -/
theorem strings_read_back_escapes :
    let text := quoted '\'' "it's\n\\"
    text = "'it\\'s\\n\\\\'" ∧
      ofText text = .ok [⟨.string "it's\n\\", ⟨0, 11⟩, false, false⟩,
        ⟨.endOfInput, .point 11, false, false⟩] ∧
      ⟨.string, ['"', '\\', 'q', '"']⟩ ∈ Lexeme.ofText "\"\\q\";" ∧
      ∃ c, kindOf? ⟨.string, ['"', '\\', 'q', '"']⟩ = .error (.invalidEscape c) := by
  intro text
  have spelled : text = "'it\\'s\\n\\\\'" := by decide
  have size : text.utf8ByteSize = 11 := by decide +kernel
  have read := strings_read_back.1 '\'' "it's\n\\" (.inr rfl)
  have mem : ⟨.string, ['"', '\\', 'q', '"']⟩ ∈ Lexeme.ofText "\"\\q\";" := by decide +kernel
  refine ⟨spelled, ?_, mem, ?_⟩
  · rw [← size]
    exact read
  · apply (strings_read_back.2 _ _ mem rfl).resolve_left
    rintro ⟨s, hs⟩
    cases hs

end Token

end ScriptDebugger
