import ScriptDebugger.Proofs.Number.Literal
import ScriptDebugger.Proofs.Token.Enclosed

/-!
# Numbers and the words behind them

A number is the longest decimal literal that the text begins with
(`LongestDecimal`), and the word characters that run on from it belong to the
same lexeme, which then is malformed. A hexadecimal number ends with its last
digit, so it is the one number that a word may follow at once
(`Token.numbers_apart_from_words`).
-/

namespace ScriptDebugger

open Number (isDigit isHexDigit Decimal Exponent EndsDigits)

/-- `n` is the longest decimal literal that `cs` begins with. -/
structure LongestDecimal (cs n : List Char) : Prop where
  decimal : Decimal n
  starts : n <+: cs
  longest : ∀ m, Decimal m → m <+: cs → m.length ≤ n.length

/-- The text begins with the mark of a hexadecimal number. -/
def IsHex (cs : List Char) : Prop :=
  ∃ mark rest, (mark = 'x' ∨ mark = 'X') ∧ cs = '0' :: mark :: rest

namespace Lexeme

variable {cs n w rest : List Char}

/-- Length of the decimal literal that a text begins with. -/
def literalLength (cs : List Char) : Nat :=
  let whole := run isDigit cs
  let fraction := fractionLength (cs.drop whole)
  whole + fraction + exponentLength (cs.drop (whole + fraction))

lemma decimalLength_eq (cs : List Char) :
    decimalLength cs = literalLength cs + run isWordPart (cs.drop (literalLength cs)) :=
  rfl

lemma exponent_run {mark : Char} {sign : List Char} (letter : mark = 'e' ∨ mark = 'E')
    (signed : sign ∈ Number.signs) {ds : List Char} (found : run isDigit ds ≠ 0) :
    Exponent (mark :: (sign ++ ds.take (run isDigit ds))) := by
  rw [take_run]
  exact .some letter signed (by simpa [run] using found) fun d => List.mem_takeWhile_imp

lemma exponent_take (cs : List Char) : Exponent (cs.take (exponentLength cs)) := by
  match cs with
  | [] => exact .none
  | [mark] =>
    have none : exponentLength [mark] = 0 := by simp [exponentLength]
    rw [none]
    exact .none
  | mark :: s :: ds =>
    simp only [exponentLength]
    split
    case isTrue letter =>
      split
      case isTrue sign =>
        split
        case isTrue => exact .none
        case isFalse found =>
          have signed : [s] ∈ Number.signs := by rcases sign with rfl | rfl <;> decide
          rw [Nat.add_comm, List.take_succ_cons, List.take_succ_cons]
          exact exponent_run letter signed found
      case isFalse =>
        split
        case isTrue => exact .none
        case isFalse found =>
          have signed : [] ∈ Number.signs := by decide
          rw [Nat.add_comm, List.take_succ_cons]
          exact exponent_run letter signed found
    case isFalse => exact .none

/-- A digit, or a point and a digit. -/
def BeginsNumber (cs : List Char) : Prop :=
  ∃ c rest, cs = c :: rest ∧ (isDigit c || (c == '.' && rest.head?.any isDigit)) = true

lemma BeginsNumber.first (h : BeginsNumber cs) :
    ∃ c rest, cs = c :: rest ∧ (isDigit c = true ∨ c = '.') := by
  obtain ⟨c, rest, rfl, first⟩ := h
  rw [Bool.or_eq_true, Bool.and_eq_true, beq_iff_eq] at first
  exact ⟨c, rest, rfl, first.imp_right And.left⟩

lemma literalLength_le (cs : List Char) : literalLength cs ≤ cs.length := (decimalLength_parts cs).2

lemma fractionLength_of_head?_ne (h : cs.head? ≠ some '.') : fractionLength cs = 0 := by
  cases cs with
  | nil => rfl
  | cons c cs => rw [fractionLength_cons, if_neg fun hc => h (congrArg some hc)]

/-- Where a number begins, as many characters as its literal is long are a literal. -/
lemma decimal_take_literalLength (begins : BeginsNumber cs) :
    Decimal (cs.take (literalLength cs)) := by
  have digits : ∀ d ∈ cs.takeWhile isDigit, isDigit d = true := fun d => List.mem_takeWhile_imp
  obtain ⟨c, rest, rfl, first⟩ := begins
  simp only [literalLength]
  rw [List.take_add, List.take_add, ← List.drop_drop, take_run, drop_run]
  by_cases point : ((c :: rest).dropWhile isDigit).head? = some '.'
  · obtain ⟨r, hr⟩ := List.head?_eq_some_iff.mp point
    rw [hr, fractionLength_cons, if_pos rfl, Nat.add_comm 1, List.take_succ_cons,
      List.drop_succ_cons, take_run, drop_run, List.append_assoc, List.cons_append]
    refine .pointed ?_ (List.forall_mem_append.mpr ⟨digits, fun d => List.mem_takeWhile_imp⟩)
      (exponent_take _)
    by_cases digit : isDigit c = true
    · simp [digit]
    · rw [List.dropWhile_cons_of_neg digit] at hr
      obtain ⟨rfl, rfl⟩ := List.cons.inj hr
      obtain ⟨d, hd, isDigit_d⟩ := (Option.any_eq_true ..).mp (by simpa [digit] using first)
      obtain ⟨ds, rfl⟩ := List.head?_eq_some_iff.mp hd
      simp [isDigit_d]
  · rw [fractionLength_of_head?_ne point, List.take_zero, List.append_nil, List.drop_zero]
    refine .whole ?_ digits (exponent_take _)
    have digit : isDigit c = true := by
      by_contra digit
      rw [List.dropWhile_cons_of_neg digit] at point
      simp_all
    simp [digit]

lemma run_append_of_pos {p : Char → Bool} (all : ∀ c ∈ w, p c = true) (rest : List Char) :
    run p (w ++ rest) = w.length + run p rest := by
  rw [run, List.takeWhile_append_of_pos all, List.length_append, run]

lemma run_eq_zero {p : Char → Bool} (ends : ∀ c ∈ cs.head?, p c = false) : run p cs = 0 := by
  cases cs with
  | nil => rfl
  | cons c cs => rw [run_cons, ends c rfl, if_neg Bool.false_ne_true]

/-- An exponent part that is there begins with neither a digit nor a point. -/
lemma exponent_cases {es : List Char} (h : Exponent es) :
    es = [] ∨ ∀ rest, run isDigit (es ++ rest) = 0 ∧ fractionLength (es ++ rest) = 0 := by
  cases h with
  | none => exact .inl rfl
  | some letter => rcases letter with rfl | rfl <;> exact .inr fun rest => ⟨rfl, rfl⟩

/-- An exponent part is found whole. -/
lemma length_le_exponentLength {es : List Char} (h : Exponent es) (rest : List Char) :
    es.length ≤ exponentLength (es ++ rest) := by
  cases h with
  | none => exact Nat.zero_le _
  | @some mark sign ds letter signed nonempty digits =>
    have whole := run_append_of_pos digits rest
    obtain ⟨d, ds, rfl⟩ := List.exists_cons_of_ne_nil nonempty
    have digit : isDigit d = true := digits d (by simp)
    rcases Number.signs_cases signed with rfl | rfl | rfl
    · have unsigned : ¬ (d = '+' ∨ d = '-') := by rintro (rfl | rfl) <;> cases digit
      simp only [List.nil_append, List.cons_append, List.length_cons] at whole ⊢
      simp only [exponentLength, if_pos letter, if_neg unsigned, whole]
      split <;> omega
    all_goals
      simp only [List.cons_append, List.nil_append, List.length_cons] at whole ⊢
      simp only [exponentLength, if_pos letter, true_or, or_true, if_true, whole]
      split <;> omega

lemma literalLength_pos (begins : BeginsNumber cs) : 0 < literalLength cs := by
  have found := List.length_pos_iff.mpr (decimal_take_literalLength begins).ne_nil
  rwa [List.length_take_of_le (literalLength_le cs)] at found

/-- No decimal literal at the beginning of a text is longer. -/
lemma length_le_literalLength (h : Decimal n) (rest : List Char) :
    n.length ≤ literalLength (n ++ rest) := by
  cases h with
  | @whole ds exponent _ digits tail =>
    have found := length_le_exponentLength tail rest
    simp only [literalLength, List.append_assoc, run_append_of_pos digits, List.length_append]
    rcases exponent_cases tail with rfl | ends
    · simp only [List.length_nil]
      omega
    · rw [(ends rest).1, Nat.add_zero, List.drop_left, (ends rest).2, Nat.add_zero, List.drop_left]
      omega
  | @pointed ds fs exponent _ digits tail =>
    have found := length_le_exponentLength tail rest
    obtain ⟨whole, fraction⟩ := List.forall_mem_append.mp digits
    have point : run isDigit ('.' :: (fs ++ (exponent ++ rest))) = 0 := rfl
    simp only [literalLength, List.append_assoc, List.cons_append, run_append_of_pos whole, point,
      Nat.add_zero, List.drop_left, fractionLength_cons, if_true, run_append_of_pos fraction,
      List.length_append, List.length_cons]
    rcases exponent_cases tail with rfl | ends
    · simp only [List.length_nil]
      omega
    · rw [(ends rest).1, Nat.add_zero, ← List.drop_drop, List.drop_left, Nat.add_comm 1,
        List.drop_succ_cons, List.drop_left]
      omega

lemma beginsNumber_of_decimal (h : Decimal n) (rest : List Char) : BeginsNumber (n ++ rest) := by
  cases h with
  | @whole ds exponent nonempty digits =>
    obtain ⟨d, ds, rfl⟩ := List.exists_cons_of_ne_nil nonempty
    exact ⟨d, _, rfl, by rw [digits d List.mem_cons_self]; rfl⟩
  | @pointed ds fs exponent nonempty digits =>
    cases ds with
    | nil =>
      obtain ⟨f, fs, rfl⟩ := List.exists_cons_of_ne_nil nonempty
      have digit : isDigit f = true := digits f List.mem_cons_self
      exact ⟨'.', _, rfl, by simp [digit]⟩
    | cons d ds => exact ⟨d, _, rfl, by rw [digits d List.mem_cons_self]; rfl⟩

/-- The literal that is found is the longest one. -/
lemma longestDecimal_take (begins : BeginsNumber cs) :
    LongestDecimal cs (cs.take (literalLength cs)) where
  decimal := decimal_take_literalLength begins
  starts := List.take_prefix _ _
  longest := by
    rintro m decimal ⟨rest, rfl⟩
    rw [List.length_take_of_le (literalLength_le _)]
    exact length_le_literalLength decimal rest

lemma literalLength_of_longest (h : LongestDecimal cs n) : literalLength cs = n.length := by
  obtain ⟨rest, rfl⟩ := h.starts
  have found := longestDecimal_take (beginsNumber_of_decimal h.decimal rest)
  have upper := h.longest _ found.decimal found.starts
  have lower := length_le_literalLength h.decimal rest
  rw [List.length_take_of_le (literalLength_le _)] at upper
  exact Nat.le_antisymm upper lower

lemma extent_of_beginsNumber {c : Char} (begins : BeginsNumber (c :: cs)) :
    extent c cs = (.number, numberLength (c :: cs) - 1) := by
  obtain ⟨c, rest, hcs, first⟩ := begins
  obtain ⟨rfl, rfl⟩ := List.cons.inj hcs
  have ne {d : Char} (digit : isDigit d = false) (point : d ≠ '.') : c ≠ d := by
    rintro rfl
    simp [digit, point] at first
  have blank : isBlank c = false := by
    by_contra blank
    rcases blank_cases (Bool.not_eq_false _ ▸ blank) with h | h | h | h <;> revert h <;>
      exact ne rfl (by decide)
  have word : isWordStart c = false := by
    by_contra word
    have word := Bool.not_eq_false _ ▸ word
    exact ne (isDigit_of_isWordStart word) (ne_of_isWordStart word rfl) rfl
  rw [extent_of_ne (ne rfl (by decide)) (ne rfl (by decide)) (ne rfl (by decide)), blank, word,
    first]
  rfl

lemma beginsNumber_of_extent {c : Char} (number : (extent c cs).1 = .number) :
    BeginsNumber (c :: cs) := by
  have begins := begins_extent c cs
  rw [number] at begins
  exact ⟨c, cs, rfl, begins⟩

lemma numberLength_hex {mark : Char} (letter : mark = 'x' ∨ mark = 'X') (cs : List Char) :
    numberLength ('0' :: mark :: cs) = 2 + run isHexDigit cs := by
  rw [numberLength, if_pos letter]

lemma numberLength_of_not_isHex (decimal : ¬ IsHex cs) : numberLength cs = decimalLength cs := by
  cases cs with
  | nil => rfl
  | cons c cs =>
    rw [numberLength_cons, if_neg]
    rintro ⟨rfl, mark⟩
    rcases mark with mark | mark <;>
      · obtain ⟨rest, rfl⟩ := List.head?_eq_some_iff.mp mark
        exact decimal ⟨_, rest, by simp, rfl⟩

lemma numberLength_pos (begins : BeginsNumber cs) : 0 < numberLength cs := by
  by_cases hex : IsHex cs
  · obtain ⟨mark, rest, letter, rfl⟩ := hex
    rw [numberLength_hex letter]
    omega
  · have positive := literalLength_pos begins
    rw [numberLength_of_not_isHex hex, decimalLength_eq]
    omega

/-- The literal and the word characters behind it are one lexeme. -/
lemma ofChars_of_longest (h : LongestDecimal (n ++ (w ++ rest)) n)
    (decimal : ¬ IsHex (n ++ (w ++ rest))) (word : ∀ c ∈ w, isWordPart c = true)
    (ends : ∀ c ∈ rest.head?, isWordPart c = false) :
    ofChars (n ++ (w ++ rest)) = ⟨.number, n ++ w⟩ :: ofChars rest := by
  have begins := beginsNumber_of_decimal h.decimal (w ++ rest)
  have total : numberLength (n ++ (w ++ rest)) = n.length + w.length := by
    rw [numberLength_of_not_isHex decimal, decimalLength_eq, literalLength_of_longest h,
      List.drop_left, run_append_of_pos word, run_eq_zero ends, Nat.add_zero]
  obtain ⟨c, ds, rfl⟩ := List.exists_cons_of_ne_nil h.decimal.ne_nil
  have whole : extent c (ds ++ w ++ rest) = (.number, (ds ++ w).length) := by
    rw [List.cons_append] at begins total
    rw [List.append_assoc, extent_of_beginsNumber begins, total, List.length_cons,
      List.length_append, Nat.add_right_comm, Nat.add_sub_cancel]
  have first := ofChars_eq_cons (l := ⟨.number, c :: (ds ++ w)⟩) rfl whole
  rwa [List.cons_append, List.append_assoc] at first

section Split

variable {l l' : Lexeme} {ls : List Lexeme}

/-- A number at the beginning of a text is as long as `numberLength` says. -/
lemma number_of_ofChars (split : ofChars cs = l :: ls) (number : l.kind = .number) :
    cs = l.chars ++ ls.flatMap chars ∧ BeginsNumber cs ∧ numberLength cs = l.chars.length := by
  have text : cs = l.chars ++ ls.flatMap chars := by
    rw [← flatMap_chars_ofChars cs, split, List.flatMap_cons]
  obtain ⟨c, ds, hl, hextent⟩ := extent_of_ofChars split
  rw [number] at hextent
  have begins := beginsNumber_of_extent (congrArg Prod.fst hextent)
  rw [extent_of_beginsNumber begins] at hextent
  have length : numberLength (c :: (ds ++ ls.flatMap chars)) - 1 = ds.length :=
    congrArg Prod.snd hextent
  have positive := numberLength_pos begins
  rw [hl, List.cons_append] at text
  rw [text, hl, List.length_cons]
  exact ⟨rfl, begins, by omega⟩

lemma word_of_ofChars (split : ofChars cs = l :: ls) (word : l.kind = .word) :
    ∃ c ds, l.chars = c :: ds ∧ isWordPart c = true := by
  obtain ⟨c, ds, hl, hextent⟩ := extent_of_ofChars split
  have begins := begins_extent c (ds ++ ls.flatMap chars)
  rw [hextent, word] at begins
  exact ⟨c, ds, hl, by rw [isWordPart, begins, Bool.true_or]⟩

/-- No word character follows a lexeme that ends with the word characters behind a literal. -/
lemma not_isWordPart_of_decimalLength {front : List Char} {c : Char}
    (length : decimalLength (front ++ c :: rest) = front.length) : isWordPart c = false := by
  rw [decimalLength_eq] at length
  generalize literalLength (front ++ c :: rest) = n at length
  have whole : run isWordPart (front.drop n ++ c :: rest) = (front.drop n).length := by
    rw [← List.drop_append_of_le_length (by omega), List.length_drop]
    omega
  exact ends_of_run whole

/-- Where a word is the next lexeme behind a number, the number is hexadecimal. -/
lemma hex_of_ofChars (split : ofChars cs = l :: l' :: ls) (number : l.kind = .number)
    (word : l'.kind = .word) :
    ∃ mark ds, (mark = 'x' ∨ mark = 'X') ∧ (∀ d ∈ ds, isHexDigit d = true) ∧
      l.chars = '0' :: mark :: ds := by
  obtain ⟨text, -, length⟩ := number_of_ofChars split number
  by_cases hex : IsHex cs
  · obtain ⟨mark, digits, letter, rfl⟩ := hex
    have chars_eq : l.chars = ('0' :: mark :: digits).take l.chars.length := by
      rw [text, List.take_left]
    rw [numberLength_hex letter] at length
    rw [← length, Nat.add_comm 2, List.take_succ_cons, List.take_succ_cons, take_run] at chars_eq
    exact ⟨mark, _, letter, fun d => List.mem_takeWhile_imp, chars_eq⟩
  · have both : ofChars cs = [l] ++ (l' :: ls) := split
    obtain ⟨c, ds, hl', part⟩ := word_of_ofChars (ofChars_of_append both) word
    rw [numberLength_of_not_isHex hex, text, List.flatMap_cons, hl', List.cons_append] at length
    rw [not_isWordPart_of_decimalLength length] at part
    cases part

end Split

end Lexeme

namespace Token

variable {cs n w rest : List Char}

lemma readNumber_hex {mark : Char} (letter : mark = 'x' ∨ mark = 'X') (ds : List Char) :
    readNumber ('0' :: mark :: ds) = match Number.readHex? ds with
      | some x => .ok x
      | none => .error (.malformedNumber (String.ofList ('0' :: mark :: ds))) := by
  rcases letter with rfl | rfl <;> rfl

lemma readNumber_of_not_isHex (decimal : ¬ IsHex cs) :
    readNumber cs = match Number.readFloat? cs with
      | some x => .ok x
      | none => .error (.malformedNumber (String.ofList cs)) := by
  unfold readNumber
  split
  case h_1 ds => exact absurd ⟨'x', ds, .inl rfl, rfl⟩ decimal
  case h_2 ds => exact absurd ⟨'X', ds, .inr rfl, rfl⟩ decimal
  case h_3 => rfl

/-- A literal with word characters behind it, which do not make it longer, is no number. -/
lemma readNumber_of_longest (h : LongestDecimal (n ++ (w ++ rest)) n)
    (decimal : ¬ IsHex (n ++ w)) (nonempty : w ≠ []) :
    readNumber (n ++ w) = .error (.malformedNumber (String.ofList (n ++ w))) := by
  obtain ⟨c, rest', text, first⟩ := (Lexeme.beginsNumber_of_decimal h.decimal w).first
  have longer : ¬ Decimal (n ++ w) := fun decimal => by
    have bound := h.longest (n ++ w) decimal ⟨rest, List.append_assoc n w rest⟩
    rw [List.length_append] at bound
    have := List.length_pos_iff.mpr nonempty
    omega
  have none : Number.readFloat? (n ++ w) = none := by
    rw [text, ← Number.isSome_readFloat? first, Option.not_isSome_iff_eq_none, ← text] at longer
    exact longer
  rw [readNumber_of_not_isHex decimal, none]

/-- The first lexeme that cannot be read is the error. -/
lemma ofLexemes_of_error {ls ls' : List Lexeme} {l : Lexeme} {fault : LexFault} (offset : Nat)
    (newline comment : Bool) (before : ∀ k ∈ ls, ∃ kind, kindOf? k = .ok kind)
    (bad : kindOf? l = .error fault) :
    ofLexemes offset newline comment (ls ++ l :: ls') =
      .error ⟨fault, ⟨offset + totalSize ls, offset + totalSize ls + l.size⟩⟩ := by
  induction ls generalizing offset newline comment with
  | nil =>
    rw [List.nil_append, ofLexemes_cons, bad, totalSize_nil]
    rfl
  | cons k ks ih =>
    obtain ⟨⟨kind, read⟩, others⟩ := List.forall_mem_cons.mp before
    rw [List.cons_append, ofLexemes_cons, read, totalSize_cons, ← Nat.add_assoc]
    cases kind with
    | none => exact ih _ _ _ others
    | some kind =>
      dsimp only
      rw [ih _ _ _ others]
      rfl

/-- Behind some lexemes of a text that can be read, `cs` is left of it. -/
structure Reaches (text : String) (before : List Lexeme) (cs : List Char) : Prop where
  split : Lexeme.ofText text = before ++ Lexeme.ofChars cs
  read : ∀ l ∈ before, ∃ kind, kindOf? l = .ok kind

lemma ofText_of_longest {text : String} {before : List Lexeme}
    (reaches : Reaches text before (n ++ (w ++ rest))) (h : LongestDecimal (n ++ (w ++ rest)) n)
    (decimal : ¬ IsHex (n ++ (w ++ rest))) (nonempty : w ≠ [])
    (word : ∀ c ∈ w, Lexeme.isWordPart c = true)
    (ends : ∀ c ∈ rest.head?, Lexeme.isWordPart c = false) :
    let start := totalSize before
    ofText text = .error ⟨.malformedNumber (String.ofList (n ++ w)),
      ⟨start, start + byteLength (n ++ w)⟩⟩ := by
  intro start
  have alone : ¬ IsHex (n ++ w) := by
    rintro ⟨mark, r, letter, text⟩
    exact decimal ⟨mark, r ++ rest, letter, by rw [← List.append_assoc, text]; rfl⟩
  have bad : kindOf? ⟨.number, n ++ w⟩ = .error (.malformedNumber (String.ofList (n ++ w))) := by
    simp only [kindOf?, readNumber_of_longest h alone nonempty]
    rfl
  rw [ofText, reaches.split, Lexeme.ofChars_of_longest h decimal word ends,
    ofLexemes_of_error 0 false false reaches.read bad, Nat.zero_add]
  rfl

lemma word_of_kindOf? {l : Lexeme} {k : TokenKind} (h : kindOf? l = .ok (some k))
    (word : k.isWord = true) : l.kind = .word := by
  obtain ⟨hl, -⟩ | ⟨x, -, -, rfl⟩ | ⟨s, -, -, rfl⟩ | ⟨p, -, rfl⟩ := kindOf?_some_cases h
  · exact hl
  all_goals cases word

lemma number_of_kindOf? {l : Lexeme} {x : Float} (h : kindOf? l = .ok (some (.number x))) :
    l.kind = .number ∧ readNumber l.chars = .ok x := by
  obtain ⟨-, hk⟩ | ⟨y, hl, read, hk⟩ | ⟨s, -, -, hk⟩ | ⟨p, -, hk⟩ := kindOf?_some_cases h
  · have word := isWord_ofWord l.text
    rw [← hk] at word
    cases word
  · cases hk
    exact ⟨hl, read⟩
  · cases hk
  · cases hk

lemma eq_nil_of_totalSize {text : String} {ls : List Lexeme}
    (inside : ∀ l ∈ ls, l ∈ Lexeme.ofText text) (empty : totalSize ls = 0) : ls = [] := by
  cases ls with
  | nil => rfl
  | cons l ls =>
    have positive := Lexeme.size_pos_of_mem_ofChars (inside l List.mem_cons_self)
    rw [totalSize_cons] at empty
    omega

/-- The only number that a word touches is a hexadecimal one. -/
lemma hex_of_touching {text : String} {us vs : List Token} {t u : Token} {x : Float}
    (lexed : ofText text = .ok (us ++ t :: u :: vs)) (number : t.kind = .number x)
    (word : u.kind.isWord = true) (touching : u.span.start = t.span.stop) :
    ∃ mark ds, (mark = 'x' ∨ mark = 'X') ∧ (∀ d ∈ ds, isHexDigit d = true) ∧
      (t.span.slice text).toList = '0' :: mark :: ds := by
  obtain ⟨before, l, behind, split, read, span, later, -⟩ :=
    exists_lexeme lexed (by rw [number]; rfl)
  obtain ⟨gap, -, ⟨-, last⟩ | ⟨l', ls, kind, ts, rfl, read', next, -⟩⟩ := ofLexemes_first later
  · obtain ⟨rfl, -⟩ := List.cons.inj last
    cases word
  · obtain ⟨rfl, -⟩ := List.cons.inj next
    -- nothing stands between the two, so there is no lexeme between them
    have empty : t.span.stop + totalSize gap = t.span.stop := touching
    have inside : ∀ k ∈ gap, k ∈ Lexeme.ofText text := fun k hk => by
      rw [split]
      simp [hk]
    obtain rfl := eq_nil_of_totalSize inside (by omega)
    have whole : Lexeme.ofChars text.toList = before ++ (l :: l' :: ls) := split
    rw [number] at read
    obtain ⟨mark, ds, letter, digits, chars⟩ := Lexeme.hex_of_ofChars
      (Lexeme.ofChars_of_append whole) (number_of_kindOf? read).1 (word_of_kindOf? read' word)
    have parts : Lexeme.ofText text = before ++ ([l] ++ (l' :: ls)) := split
    have slice := toList_slice parts
    rw [List.flatMap_singleton, chars, totalSize_cons, totalSize_nil, Nat.add_zero] at slice
    refine ⟨mark, ds, letter, digits, ?_⟩
    rw [span, Nat.zero_add]
    exact slice

/-- A word that touches a number in front of it stands behind a hexadecimal one. Behind the longest
decimal literal, word characters make one malformed number with it, and that is what is wrong with
the text if all before it can be read. -/
theorem numbers_apart_from_words (text : String) :
    (∀ us t u vs x, ofText text = .ok (us ++ t :: u :: vs) → t.kind = .number x →
      u.kind.isWord = true → u.span.start = t.span.stop →
      ∃ mark ds, (mark = 'x' ∨ mark = 'X') ∧ (∀ d ∈ ds, isHexDigit d = true) ∧
        (t.span.slice text).toList = '0' :: mark :: ds) ∧
    ∀ before n w rest, Reaches text before (n ++ (w ++ rest)) →
      LongestDecimal (n ++ (w ++ rest)) n → ¬ IsHex (n ++ (w ++ rest)) → w ≠ [] →
      (∀ c ∈ w, Lexeme.isWordPart c = true) → (∀ c ∈ rest.head?, Lexeme.isWordPart c = false) →
      let start := totalSize before
      ofText text = .error ⟨.malformedNumber (String.ofList (n ++ w)),
        ⟨start, start + byteLength (n ++ w)⟩⟩ :=
  ⟨fun _ _ _ _ _ lexed number word touching => hex_of_touching lexed number word touching,
    fun _ _ _ _ reaches longest decimal nonempty word ends =>
      ofText_of_longest reaches longest decimal nonempty word ends⟩

/-- A word behind hexadecimal digits, and one behind decimal digits. -/
theorem numbers_apart_from_words_digits :
    (∃ us t u vs x, ofText "a=0x2g" = .ok (us ++ t :: u :: vs) ∧ t.kind = .number x ∧
      u.kind.isWord = true ∧ u.span.start = t.span.stop ∧
      ∃ mark ds, (mark = 'x' ∨ mark = 'X') ∧ (∀ d ∈ ds, isHexDigit d = true) ∧
        (t.span.slice "a=0x2g").toList = '0' :: mark :: ds) ∧
    Reaches "a=12abc;" [⟨.word, ['a']⟩, ⟨.punct .assign, ['=']⟩] "12abc;".toList ∧
      LongestDecimal "12abc;".toList ['1', '2'] ∧ ¬ IsHex "12abc;".toList ∧
      ofText "a=12abc;" = .error ⟨.malformedNumber "12abc", ⟨2, 7⟩⟩ := by
  constructor
  · have split : Lexeme.ofText "a=0x2g" = [⟨.word, ['a']⟩, ⟨.punct .assign, ['=']⟩,
        ⟨.number, ['0', 'x', '2']⟩, ⟨.word, ['g']⟩] := by decide +kernel
    have lexed : ofText "a=0x2g" = .ok ([⟨.ident "a", ⟨0, 1⟩, false, false⟩,
        ⟨.punct .assign, ⟨1, 2⟩, false, false⟩] ++
          ⟨.number (Binary64.ofNat 2), ⟨2, 5⟩, false, false⟩ ::
          ⟨.ident "g", ⟨5, 6⟩, false, false⟩ :: [⟨.endOfInput, .point 6, false, false⟩]) := by
      rw [ofText, split]
      rfl
    exact ⟨_, _, _, _, _, lexed, rfl, rfl, rfl,
      (numbers_apart_from_words "a=0x2g").1 _ _ _ _ _ lexed rfl rfl rfl⟩
  · have reaches : Reaches "a=12abc;" [⟨.word, ['a']⟩, ⟨.punct .assign, ['=']⟩]
        (['1', '2'] ++ (['a', 'b', 'c'] ++ [';'])) := by
      refine ⟨by decide +kernel, fun l hl => ?_⟩
      rcases List.mem_cons.mp hl with rfl | hl
      · exact ⟨_, rfl⟩
      · obtain rfl := List.mem_singleton.mp hl
        exact ⟨_, rfl⟩
    have longest : LongestDecimal (['1', '2'] ++ (['a', 'b', 'c'] ++ [';'])) ['1', '2'] :=
      Lexeme.longestDecimal_take ⟨'1', _, rfl, rfl⟩
    have decimal : ¬ IsHex (['1', '2'] ++ (['a', 'b', 'c'] ++ [';'])) := by
      rintro ⟨mark, rest, -, ⟨⟩⟩
    have word : ∀ c ∈ ['a', 'b', 'c'], Lexeme.isWordPart c = true := List.all_eq_true.mp rfl
    have ends : ∀ c ∈ [';'].head?, Lexeme.isWordPart c = false := by
      rintro _ ⟨⟩
      rfl
    refine ⟨reaches, longest, decimal, ?_⟩
    exact (numbers_apart_from_words "a=12abc;").2 _ _ _ _ reaches longest decimal (by decide) word
      ends

/-- A hexadecimal number and a word, with nothing between them. -/
theorem hex_number_runs_into_word :
    ofText "0x1g" = .ok [⟨.number (Binary64.ofNat 1), ⟨0, 3⟩, false, false⟩,
      ⟨.ident "g", ⟨3, 4⟩, false, false⟩, ⟨.endOfInput, .point 4, false, false⟩] := by
  have split : Lexeme.ofText "0x1g" = [⟨.number, ['0', 'x', '1']⟩, ⟨.word, ['g']⟩] := by
    decide +kernel
  rw [ofText, split]
  rfl

end Token

end ScriptDebugger
