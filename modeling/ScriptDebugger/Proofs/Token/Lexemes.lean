import Mathlib.Data.List.Find
import Mathlib.Data.List.Induction
import Mathlib.Tactic.Lemma
import ScriptDebugger.Token.Lexeme

/-!
# Lexemes before a separator

Where a text is followed by a line feed, a blank or a closing brace, its lexemes are read
as they are alone, whatever comes later: no lexeme but an open string or comment looks past
the separator (`extent_append`, `ofChars_append_last`). Only blanks and line comments go on
with a blank or a brace, and a carriage return takes in a line feed (`ofChars_append`).
-/

namespace ScriptDebugger

lemma byteLength_cons (c : Char) (cs : List Char) :
    byteLength (c :: cs) = c.utf8Size + byteLength cs := by
  have shift (n : Nat) : cs.foldl (fun n c => n + c.utf8Size) n =
      n + cs.foldl (fun n c => n + c.utf8Size) 0 := by
    induction cs generalizing n with
    | nil => rfl
    | cons d ds ih =>
      rw [List.foldl_cons, List.foldl_cons, ih, ih (0 + d.utf8Size)]
      omega
  rw [byteLength, List.foldl_cons, shift, Nat.zero_add, byteLength]

lemma byteLength_append (cs ds : List Char) :
    byteLength (cs ++ ds) = byteLength cs + byteLength ds := by
  induction cs with
  | nil => exact (Nat.zero_add _).symm
  | cons c cs ih => rw [List.cons_append, byteLength_cons, byteLength_cons, ih, Nat.add_assoc]

/-- The length of a list of characters is that of their text. -/
lemma byteLength_toList (text : String) : byteLength text.toList = text.utf8ByteSize := by
  have sizes (cs : List Char) : byteLength cs = (String.ofList cs).utf8ByteSize := by
    induction cs with
    | nil => rfl
    | cons c cs ih =>
      rw [byteLength_cons, ih, String.ofList_cons, String.utf8ByteSize_append,
        String.utf8ByteSize_singleton]
  rw [sizes, String.ofList_toList]

/-- What the end of a line or of the text cuts short. -/
def LexemeKind.isOpen : LexemeKind → Bool
  | .openString | .openComment => true
  | _ => false

/-- What is open unless it has been closed. -/
lemma LexemeKind.closed_of_ite {closed : Bool} {kind opened : LexemeKind}
    (opens : opened.isOpen = true) (h : (if closed then kind else opened).isOpen = false) :
    closed = true := by
  cases closed with
  | true => rfl
  | false =>
    have opens' : opened.isOpen = false := h
    rw [opens] at opens'
    cases opens'

/-- Whether a lexeme that ends before the separator `s` would take it in. -/
def LexemeKind.takesIn (s : Char) : LexemeKind → Bool
  | .blank => Lexeme.isBlank s
  | .lineComment => !Lexeme.isLineBreak s
  | _ => false

namespace Lexeme

variable {cs after rest : List Char} {s : Char}

lemma blank_cases (hs : isBlank s = true) : s = ' ' ∨ s = '\t' ∨ s = '\x0b' ∨ s = '\x0c' := by
  simpa [isBlank, or_assoc] using hs

/-- What cannot begin a word. -/
lemma ne_of_isWordStart {c d : Char} (h : isWordStart c = true) (hd : isWordStart d = false) :
    c ≠ d := by
  rintro rfl
  exact Bool.noConfusion (h.symm.trans hd)

lemma isDigit_of_isWordStart {c : Char} (h : isWordStart c = true) : Number.isDigit c = false := by
  by_contra digit
  simp only [isWordStart, Number.isDigit, Bool.or_eq_true, decide_eq_true_eq, beq_iff_eq,
    Bool.not_eq_false, Char.le_def, UInt32.le_iff_toNat_le] at h digit
  obtain ⟨low, high⟩ := digit
  change 48 ≤ c.val.toNat at low
  change c.val.toNat ≤ 57 at high
  rcases h with ((h | h) | rfl) | rfl
  · have : 97 ≤ c.val.toNat := h.1
    omega
  · have : 65 ≤ c.val.toNat := h.1
    omega
  · exact absurd high (by decide)
  · exact absurd low (by decide)

/-- A line feed, a closing brace or a blank. -/
def isSeparator (s : Char) : Bool := s == '\n' || s == '\x7d' || isBlank s

lemma separator_cases (hs : isSeparator s = true) :
    s = '\n' ∨ s = '\x7d' ∨ s = ' ' ∨ s = '\t' ∨ s = '\x0b' ∨ s = '\x0c' := by
  rw [isSeparator, Bool.or_eq_true, Bool.or_eq_true, beq_iff_eq, beq_iff_eq, or_assoc] at hs
  exact hs.imp_right (Or.imp_right blank_cases)

/-- The length that `read` finds within a text does not change if an `s` follows the text. -/
def StopsAt (s : Char) (read : List Char → Nat) : Prop :=
  ∀ cs after rest, read (cs ++ after) ≤ cs.length → read (cs ++ s :: rest) = read (cs ++ after)

/-- One part after another. -/
lemma StopsAt.add {read read' : List Char → Nat} (h : StopsAt s read) (h' : StopsAt s read') :
    StopsAt s fun cs => read cs + read' (cs.drop (read cs)) := by
  intro cs after rest fits
  dsimp only at fits ⊢
  have first : read (cs ++ after) ≤ cs.length := by omega
  rw [List.drop_append_of_le_length first] at fits
  have second := h' (cs.drop (read (cs ++ after))) after rest (by rw [List.length_drop]; omega)
  rw [h cs after rest first, List.drop_append_of_le_length first,
    List.drop_append_of_le_length first, second]

lemma run_le (p : Char → Bool) (cs : List Char) : run p cs ≤ cs.length :=
  (List.takeWhile_prefix p).length_le

lemma run_cons (p : Char → Bool) (c : Char) (cs : List Char) :
    run p (c :: cs) = if p c then run p cs + 1 else 0 := by
  by_cases hc : p c = true <;> simp [run, hc]

/-- A run that ends within `cs`, or before a character that ends it. -/
lemma run_append {p : Char → Bool} (fits : run p (cs ++ after) ≤ cs.length)
    (stops : p s = false ∨ run p (cs ++ after) < cs.length) :
    run p (cs ++ s :: rest) = run p (cs ++ after) := by
  induction cs with
  | nil =>
    have ends : p s = false := stops.resolve_right (Nat.not_lt_zero _)
    simpa [run_cons, ends] using (Nat.le_zero.mp fits).symm
  | cons c cs ih =>
    simp only [List.cons_append, run_cons, List.length_cons] at fits stops ⊢
    split
    case isTrue hc =>
      simp only [hc, if_true, Nat.add_le_add_iff_right, Nat.add_lt_add_iff_right] at fits stops
      rw [ih fits stops]
    case isFalse => rfl

lemma stopsAt_run {p : Char → Bool} (ends : p s = false) : StopsAt s (run p) :=
  fun _ _ _ fits => run_append fits (.inl ends)

lemma fractionLength_cons (c : Char) (cs : List Char) :
    fractionLength (c :: cs) = if c = '.' then 1 + run Number.isDigit cs else 0 := by
  by_cases hc : c = '.'
  · subst hc
    rfl
  · rw [if_neg hc, fractionLength]
    rintro ds ⟨⟩
    exact hc rfl

lemma fractionLength_le (cs : List Char) : fractionLength cs ≤ cs.length := by
  cases cs with
  | nil => exact Nat.le_refl 0
  | cons c cs =>
    have := run_le Number.isDigit cs
    rw [fractionLength_cons, List.length_cons]
    split <;> omega

/-- An exponent has a mark and at least one digit. -/
lemma exponentLength_cases (cs : List Char) :
    exponentLength cs = 0 ∨ 2 ≤ exponentLength cs ∧ exponentLength cs ≤ cs.length := by
  match cs with
  | [] => exact .inl rfl
  | [e] => simp [exponentLength]
  | e :: s :: ds =>
    have digits := run_le Number.isDigit ds
    have digits' := run_le Number.isDigit (s :: ds)
    simp only [exponentLength, List.length_cons] at digits' ⊢
    split
    case isTrue =>
      split
      case isTrue => split <;> omega
      case isFalse => split <;> omega
    case isFalse => exact .inl rfl

section Separator

variable (hs : isSeparator s = true)
include hs

lemma isDigit_separator : Number.isDigit s = false := by
  rcases separator_cases hs with rfl | rfl | rfl | rfl | rfl | rfl <;> rfl

lemma isHexDigit_separator : Number.isHexDigit s = false := by
  rcases separator_cases hs with rfl | rfl | rfl | rfl | rfl | rfl <;> rfl

lemma isWordPart_separator : isWordPart s = false := by
  rcases separator_cases hs with rfl | rfl | rfl | rfl | rfl | rfl <;> rfl

lemma stopsAt_fractionLength : StopsAt s fractionLength := by
  intro cs after rest fits
  cases cs with
  | nil =>
    have point : s ≠ '.' := by rintro rfl; cases hs
    rw [List.nil_append, fractionLength_cons, if_neg point]
    exact (Nat.le_zero.mp fits).symm
  | cons c cs =>
    simp only [List.cons_append, fractionLength_cons, List.length_cons] at fits ⊢
    split
    case isTrue hc =>
      rw [if_pos hc] at fits
      rw [stopsAt_run (isDigit_separator hs) cs after rest (by omega)]
    case isFalse => rfl

lemma stopsAt_exponentLength : StopsAt s exponentLength := by
  have digit := isDigit_separator hs
  intro cs after rest fits
  match cs with
  | [] =>
    have letter : ¬ (s = 'e' ∨ s = 'E') := by rintro (rfl | rfl) <;> cases hs
    have none : exponentLength after = 0 := Nat.le_zero.mp fits
    rw [List.nil_append, List.nil_append, none]
    simp [exponentLength, letter]
  | [e] =>
    have sign : ¬ (s = '+' ∨ s = '-') := by rintro (rfl | rfl) <;> cases hs
    have none : exponentLength ([e] ++ after) = 0 := by
      have parts := exponentLength_cases ([e] ++ after)
      rw [List.length_singleton] at fits
      omega
    rw [none]
    simp [exponentLength, sign, run_cons, digit]
  | e :: c :: ds =>
    have digits := stopsAt_run digit ds after rest
    have digits' := stopsAt_run digit (c :: ds) after rest
    simp only [List.cons_append, exponentLength, List.length_cons] at fits digits' ⊢
    split
    case isTrue letter =>
      rw [if_pos letter] at fits
      split
      case isTrue sign =>
        rw [if_pos sign] at fits
        rw [digits (by split at fits <;> omega)]
      case isFalse sign =>
        rw [if_neg sign] at fits
        rw [digits' (by split at fits <;> omega)]
    case isFalse => rfl

lemma stopsAt_decimalLength : StopsAt s decimalLength :=
  (((stopsAt_run (isDigit_separator hs)).add (stopsAt_fractionLength hs)).add
    (stopsAt_exponentLength hs)).add (stopsAt_run (isWordPart_separator hs))

end Separator

lemma decimalLength_parts (cs : List Char) :
    run Number.isDigit cs + fractionLength (cs.drop (run Number.isDigit cs)) ≤ cs.length ∧
      run Number.isDigit cs + fractionLength (cs.drop (run Number.isDigit cs)) +
        exponentLength (cs.drop (run Number.isDigit cs +
          fractionLength (cs.drop (run Number.isDigit cs)))) ≤ cs.length := by
  have whole := run_le Number.isDigit cs
  have fraction := fractionLength_le (cs.drop (run Number.isDigit cs))
  have exponent := exponentLength_cases (cs.drop (run Number.isDigit cs +
    fractionLength (cs.drop (run Number.isDigit cs))))
  rw [List.length_drop] at fraction exponent
  omega

lemma decimalLength_le (cs : List Char) : decimalLength cs ≤ cs.length := by
  obtain ⟨-, parts⟩ := decimalLength_parts cs
  have word := run_le isWordPart (cs.drop (run Number.isDigit cs +
    fractionLength (cs.drop (run Number.isDigit cs)) +
    exponentLength (cs.drop (run Number.isDigit cs +
      fractionLength (cs.drop (run Number.isDigit cs))))))
  rw [List.length_drop] at word
  simp only [decimalLength]
  omega

lemma numberLength_cons (c : Char) (cs : List Char) :
    numberLength (c :: cs) =
      if c = '0' ∧ (cs.head? = some 'x' ∨ cs.head? = some 'X') then
        2 + run Number.isHexDigit cs.tail
      else decimalLength (c :: cs) := by
  by_cases hc : c = '0'
  · subst hc
    cases cs with
    | nil => rfl
    | cons x cs => simp [numberLength]
  · rw [if_neg fun h => hc h.1, numberLength]
    rintro x ds ⟨⟩
    exact hc rfl

lemma numberLength_le (c : Char) (cs : List Char) : numberLength (c :: cs) ≤ cs.length + 1 := by
  rw [numberLength_cons]
  split
  case isTrue h =>
    cases cs with
    | nil => simp at h
    | cons x cs =>
      have := run_le Number.isHexDigit cs
      simp only [List.tail_cons, List.length_cons]
      omega
  case isFalse => exact decimalLength_le (c :: cs)

/-- A point and a digit belong to one number. -/
lemma numberLength_point {d : Char} (hd : Number.isDigit d = true) (ds : List Char) :
    1 < numberLength ('.' :: d :: ds) := by
  have whole : run Number.isDigit ('.' :: d :: ds) = 0 := rfl
  have fraction : fractionLength ('.' :: d :: ds) = 1 + (run Number.isDigit ds + 1) := by
    rw [fractionLength_cons, run_cons, if_pos rfl, if_pos hd]
  rw [numberLength_cons, if_neg fun h => absurd h.1 (by decide)]
  simp only [decimalLength, whole, List.drop_zero, fraction]
  omega

lemma stopsAt_numberLength (hs : isSeparator s = true) : StopsAt s numberLength := by
  intro cs after rest fits
  have decimal := stopsAt_decimalLength hs cs after rest
  match cs with
  | [] =>
    have first : s ≠ '0' := by rintro rfl; cases hs
    have none : numberLength after = 0 := Nat.le_zero.mp fits
    have stops := stopsAt_decimalLength hs [] [] rest (Nat.le_refl _)
    rw [List.nil_append, List.nil_append, none, numberLength_cons, if_neg fun h => first h.1]
    exact stops
  | [c] =>
    have second : ¬ ((s :: rest).head? = some 'x' ∨ (s :: rest).head? = some 'X') := by
      rcases separator_cases hs with rfl | rfl | rfl | rfl | rfl | rfl <;> simp
    simp only [List.singleton_append, List.length_singleton, numberLength_cons] at fits decimal ⊢
    rw [if_neg fun h => second h.2]
    split at fits
    case isTrue => omega
    case isFalse h => rw [if_neg h, decimal fits]
  | c :: x :: cs =>
    have both (ds : List Char) : numberLength (c :: x :: ds) =
        if c = '0' ∧ (x = 'x' ∨ x = 'X') then 2 + run Number.isHexDigit ds
        else decimalLength (c :: x :: ds) := by
      simp [numberLength_cons]
    simp only [List.cons_append, List.length_cons, both] at fits decimal ⊢
    split
    case isTrue h =>
      rw [if_pos h] at fits
      rw [stopsAt_run (isHexDigit_separator hs) cs after rest (by omega)]
    case isFalse h =>
      rw [if_neg h] at fits
      exact decimal fits

lemma stringTail_cons {quote c : Char} (hc : c ≠ '\\') (cs : List Char) :
    stringTail quote (c :: cs) =
      if isLineBreak c then (false, 0)
      else if c = quote then (true, 1)
      else ((stringTail quote cs).1, (stringTail quote cs).2 + 1) := by
  rw [stringTail]
  · rintro ⟨⟩ -
    exact hc rfl
  · rintro d ds ⟨⟩ -
    exact hc rfl

lemma stringTail_le (quote : Char) (cs : List Char) : (stringTail quote cs).2 ≤ cs.length := by
  fun_induction stringTail quote cs <;> simp_all

/-- A string that is closed ends before whatever follows it. -/
lemma stringTail_append (quote : Char) (cs ds : List Char)
    (closed : (stringTail quote cs).1 = true) :
    stringTail quote (cs ++ ds) = stringTail quote cs := by
  induction cs using List.twoStepInduction with
  | nil => cases closed
  | singleton c =>
    by_cases hc : c = '\\'
    · subst hc
      cases closed
    · rw [stringTail_cons hc] at closed
      rw [List.singleton_append, stringTail_cons hc, stringTail_cons hc]
      split
      · rfl
      · split
        · rfl
        · simp_all [stringTail]
  | cons_cons c d cs ih ih' =>
    by_cases hc : c = '\\'
    · subst hc
      have closed : (stringTail quote cs).1 = true := closed
      simp only [List.cons_append, stringTail, ih closed]
    · rw [stringTail_cons hc] at closed
      rw [List.cons_append, stringTail_cons hc, stringTail_cons hc]
      split
      · rfl
      · split
        · rfl
        · simp_all

lemma stringTail_pos {quote : Char} {cs : List Char} (closed : (stringTail quote cs).1 = true) :
    0 < (stringTail quote cs).2 := by
  fun_induction stringTail quote cs <;> simp_all

/-- A string that is closed within `cs` is closed by `cs` alone. -/
lemma stringTail_closed_of_fits {quote : Char} {cs after : List Char}
    (closed : (stringTail quote (cs ++ after)).1 = true)
    (fits : (stringTail quote (cs ++ after)).2 ≤ cs.length) :
    (stringTail quote cs).1 = true := by
  induction cs using List.twoStepInduction with
  | nil =>
    rw [List.nil_append, List.length_nil] at fits
    have := stringTail_pos closed
    rw [List.nil_append] at this
    omega
  | singleton c =>
    by_cases hc : c = '\\'
    · subst hc
      cases after with
      | nil => cases closed
      | cons d ds =>
        have fits : (stringTail quote ds).2 + 2 ≤ 1 := fits
        omega
    · rw [List.singleton_append, stringTail_cons hc] at closed fits
      rw [stringTail_cons hc]
      split at closed
      case isTrue => cases closed
      case isFalse =>
        split at closed
        case isTrue => simp_all
        case isFalse =>
          have := stringTail_pos closed
          simp_all
  | cons_cons c d cs ih ih' =>
    by_cases hc : c = '\\'
    · subst hc
      have closed : (stringTail quote (cs ++ after)).1 = true := closed
      have fits : (stringTail quote (cs ++ after)).2 + 2 ≤ cs.length + 2 := fits
      exact ih closed (by omega)
    · rw [List.cons_append, stringTail_cons hc] at closed fits
      rw [stringTail_cons hc]
      split
      case isTrue h => simp [h] at closed
      case isFalse h =>
        rw [if_neg h] at closed fits
        split
        case isTrue => rfl
        case isFalse h' =>
          rw [if_neg h'] at closed fits
          simp only [List.length_cons] at fits ih'
          exact ih' d closed (by omega)

lemma commentTail_cons (c : Char) (cs : List Char) :
    commentTail (c :: cs) =
      if c = '*' ∧ cs.head? = some '/' then (true, 2)
      else ((commentTail cs).1, (commentTail cs).2 + 1) := by
  cases cs with
  | nil => simp [commentTail]
  | cons d cs =>
    split
    case isTrue h =>
      simp only [List.head?_cons, Option.some.injEq] at h
      obtain ⟨rfl, rfl⟩ := h
      rfl
    case isFalse h =>
      rw [commentTail]
      rintro ds rfl ⟨⟩
      exact h ⟨rfl, rfl⟩

lemma commentTail_le (cs : List Char) : (commentTail cs).2 ≤ cs.length := by
  fun_induction commentTail cs <;> simp_all

lemma commentTail_append (cs ds : List Char) (closed : (commentTail cs).1 = true) :
    commentTail (cs ++ ds) = commentTail cs := by
  induction cs with
  | nil => cases closed
  | cons c cs ih =>
    rw [commentTail_cons] at closed
    rw [List.cons_append, commentTail_cons, commentTail_cons]
    cases cs with
    | nil => simp [commentTail] at closed
    | cons d cs =>
      have head : (d :: cs ++ ds).head? = (d :: cs).head? := rfl
      rw [head]
      by_cases h : c = '*' ∧ (d :: cs).head? = some '/'
      · rw [if_pos h, if_pos h]
      · rw [if_neg h] at closed
        rw [if_neg h, if_neg h, ih closed]

lemma commentTail_pos {cs : List Char} (closed : (commentTail cs).1 = true) :
    0 < (commentTail cs).2 := by
  fun_induction commentTail cs <;> simp_all

/-- A comment that is closed within `cs` is closed by `cs` alone. -/
lemma commentTail_closed_of_fits {cs after : List Char}
    (closed : (commentTail (cs ++ after)).1 = true)
    (fits : (commentTail (cs ++ after)).2 ≤ cs.length) : (commentTail cs).1 = true := by
  induction cs with
  | nil =>
    rw [List.nil_append] at closed fits
    have := commentTail_pos closed
    rw [List.length_nil] at fits
    omega
  | cons c cs ih =>
    rw [List.cons_append, commentTail_cons, List.length_cons] at fits
    rw [List.cons_append, commentTail_cons] at closed
    rw [commentTail_cons]
    split at fits
    case isTrue mark =>
      cases cs with
      | nil => simp at fits
      | cons d cs =>
        have mark : c = '*' ∧ (d :: cs).head? = some '/' := mark
        rw [if_pos mark]
    case isFalse mark =>
      rw [if_neg mark] at closed
      split
      · rfl
      · exact ih closed (by omega)

/-- A prefix that has no `s` behind its first character does not go on with one. -/
lemma prefix_of_prefix_append {c : Char} {ps : List Char} (notIn : s ∉ ps.tail)
    (h : ps <+: c :: cs ++ s :: rest) : ps <+: c :: cs := by
  rcases List.prefix_or_prefix_of_prefix h (List.prefix_append (c :: cs) _) with within | ⟨qs, rfl⟩
  · exact within
  · rw [List.prefix_append_right_inj] at h
    cases qs with
    | nil => exact ⟨[], by rw [List.append_nil, List.append_nil]⟩
    | cons q qs =>
      obtain ⟨rfl, -⟩ := List.cons_prefix_cons.mp h
      exact absurd (List.mem_append_right cs List.mem_cons_self) notIn

lemma length_le_of_longest {cs : List Char} {p : Punct} (h : Punct.longest? cs = some p) :
    p.chars.length ≤ cs.length := by
  have starts := List.find?_some h
  exact (List.isPrefixOf_iff_prefix.mp starts).length_le

lemma longest?_append (hs : isSeparator s = true) (c : Char)
    (fits : ∀ p, Punct.longest? (c :: cs ++ after) = some p → p.chars.length ≤ (c :: cs).length) :
    Punct.longest? (c :: cs ++ s :: rest) = Punct.longest? (c :: cs ++ after) := by
  have notIn (p : Punct) : s ∉ p.chars.tail := by
    rcases separator_cases hs with rfl | rfl | rfl | rfl | rfl | rfl <;> cases p <;> decide
  -- what starts the text that the separator is in lies before the separator
  have onward (p : Punct) (h : p.chars.isPrefixOf (c :: cs ++ s :: rest) = true) :
      p.chars.isPrefixOf (c :: cs ++ after) = true := by
    have within := prefix_of_prefix_append (notIn p) (List.isPrefixOf_iff_prefix.mp h)
    exact List.isPrefixOf_iff_prefix.mpr (within.trans (List.prefix_append (c :: cs) after))
  cases found : Punct.longest? (c :: cs ++ after) with
  | none =>
    rw [Punct.longest?, List.find?_eq_none] at found ⊢
    exact fun p hp h => found p hp (onward p h)
  | some p =>
    have short := fits p found
    rw [Punct.longest?, List.find?_eq_some_iff_append] at found ⊢
    obtain ⟨starts, ps, qs, all, longer⟩ := found
    have within : p.chars <+: c :: cs :=
      List.prefix_of_prefix_length_le (List.isPrefixOf_iff_prefix.mp starts)
        (List.prefix_append (c :: cs) after) short
    refine ⟨?_, ps, qs, all, fun q hq => ?_⟩
    · exact List.isPrefixOf_iff_prefix.mpr (within.trans (List.prefix_append (c :: cs) _))
    · have not := longer q hq
      rw [Bool.not_eq_true', Bool.eq_false_iff] at not ⊢
      exact fun h => not (onward q h)

lemma punctExtent_append (hs : isSeparator s = true) (c : Char)
    (fits : (punctExtent c (cs ++ after)).2 ≤ cs.length) :
    punctExtent c (cs ++ s :: rest) = punctExtent c (cs ++ after) := by
  have same : Punct.longest? (c :: cs ++ s :: rest) = Punct.longest? (c :: cs ++ after) := by
    refine longest?_append hs c fun p hp => ?_
    rw [List.cons_append] at hp
    simp only [punctExtent, hp] at fits
    rw [List.length_cons]
    omega
  rw [List.cons_append, List.cons_append] at same
  simp only [punctExtent, same]

lemma punctExtent_kind (c : Char) (cs : List Char) :
    (∃ p, (punctExtent c cs).1 = .punct p) ∨ (punctExtent c cs).1 = .unsupported ∨
      (punctExtent c cs).1 = .unexpected := by
  simp only [punctExtent]
  split
  · exact .inl ⟨_, rfl⟩
  · split
    · exact .inr (.inl rfl)
    · exact .inr (.inr rfl)

lemma punctExtent_le (c : Char) (cs : List Char) : (punctExtent c cs).2 ≤ cs.length := by
  simp only [punctExtent]
  split
  case h_1 p hp =>
    have := length_le_of_longest hp
    rw [List.length_cons] at this
    omega
  case h_2 => split <;> exact Nat.zero_le _

/-- What follows a slash. -/
lemma extent_slash (cs : List Char) :
    extent '/' cs =
      if cs.head? = some '/' then
        (.lineComment, 1 + run (fun d => !isLineBreak d) cs.tail)
      else if cs.head? = some '*' then
        (if (commentTail cs.tail).1 then .blockComment else .openComment,
          1 + (commentTail cs.tail).2)
      else punctExtent '/' cs := by
  rcases cs with _ | ⟨d, ds⟩
  · rfl
  · by_cases line : d = '/'
    · subst line
      rfl
    · by_cases block : d = '*'
      · subst block
        rfl
      · have blank : isBlank '/' = false := by decide
        have word : isWordStart '/' = false := by decide
        have digit : Number.isDigit '/' = false := by decide
        have quote : isQuote '/' = false := by decide
        simp [extent, line, block, blank, word, digit, quote]

/-- What begins with neither a slash nor a line break. -/
lemma extent_of_ne {c : Char} (line : c ≠ '\n') (carriage : c ≠ '\r') (slash : c ≠ '/')
    (cs : List Char) :
    extent c cs =
      if isBlank c then (.blank, run isBlank cs)
      else if isWordStart c then (.word, run isWordPart cs)
      else if Number.isDigit c || (c == '.' && cs.head?.any Number.isDigit) then
        (.number, numberLength (c :: cs) - 1)
      else if isQuote c then
        (if (stringTail c cs).1 then .string else .openString, (stringTail c cs).2)
      else punctExtent c cs := by
  simp only [extent, if_neg line, if_neg carriage, if_neg slash]

/-- How a lexeme of a kind begins. -/
def Begins (c : Char) (cs : List Char) : LexemeKind → Prop
  | .word => isWordStart c = true
  | .number => (Number.isDigit c || (c == '.' && cs.head?.any Number.isDigit)) = true
  | .string | .openString => isQuote c = true
  | .punct _ | .unsupported | .unexpected => extent c cs = punctExtent c cs
  | _ => True

lemma begins_extent (c : Char) (cs : List Char) : Begins c cs (extent c cs).1 := by
  have punct {c : Char} (h : extent c cs = punctExtent c cs) : Begins c cs (extent c cs).1 := by
    obtain ⟨p, hp⟩ | hp | hp := punctExtent_kind c cs <;> rw [h, hp] <;> exact h
  by_cases line : c = '\n'
  · subst line
    exact trivial
  by_cases carriage : c = '\r'
  · subst carriage
    exact trivial
  by_cases slash : c = '/'
  · subst slash
    have start := extent_slash cs
    split at start
    · rw [start]
      exact trivial
    · split at start
      · rw [start]
        dsimp only
        split <;> exact trivial
      · exact punct start
  have start := extent_of_ne line carriage slash cs
  split at start
  · rw [start]
    exact trivial
  split at start
  case isTrue word =>
    rw [start]
    exact word
  split at start
  case isTrue number =>
    rw [start]
    exact number
  split at start
  case isTrue quote =>
    rw [start]
    dsimp only
    split <;> exact quote
  · exact punct start

lemma extent_le (c : Char) (cs : List Char) : (extent c cs).2 ≤ cs.length := by
  by_cases line : c = '\n'
  · subst line
    exact Nat.zero_le _
  by_cases carriage : c = '\r'
  · subst carriage
    cases cs with
    | nil => exact Nat.le_refl 0
    | cons d ds =>
      have start : extent '\r' (d :: ds) = (.newline, if some d = some '\n' then 1 else 0) := rfl
      rw [start, List.length_cons]
      dsimp only
      split <;> omega
  by_cases slash : c = '/'
  · subst slash
    rw [extent_slash]
    cases cs with
    | nil => exact punctExtent_le '/' []
    | cons d ds =>
      have comment := run_le (fun d => !isLineBreak d) ds
      have block := commentTail_le ds
      split
      · rw [List.tail_cons, List.length_cons]
        dsimp only
        omega
      · split
        · rw [List.tail_cons, List.length_cons]
          dsimp only
          omega
        · exact punctExtent_le '/' (d :: ds)
  rw [extent_of_ne line carriage slash]
  split
  · exact run_le _ cs
  split
  · exact run_le _ cs
  split
  · exact Nat.sub_le_of_le_add (numberLength_le c cs)
  split
  · exact stringTail_le c cs
  · exact punctExtent_le c cs

section Separator

variable (hs : isSeparator s = true)
include hs

omit hs in
lemma stops_of_takesIn {p : Char → Bool} (apart : p s = true → run p (cs ++ after) < cs.length) :
    p s = false ∨ run p (cs ++ after) < cs.length := by
  by_cases h : p s = true
  · exact .inr (apart h)
  · exact .inl (Bool.eq_false_iff.mpr h)

lemma extent_slash_append (closed : (extent '/' (cs ++ after)).1.isOpen = false)
    (fits : (extent '/' (cs ++ after)).2 ≤ cs.length)
    (apart : (extent '/' (cs ++ after)).1.takesIn s = true →
      (extent '/' (cs ++ after)).2 < cs.length) :
    extent '/' (cs ++ s :: rest) = extent '/' (cs ++ after) := by
  rw [extent_slash] at closed fits apart
  rw [extent_slash, extent_slash]
  cases cs with
  | nil =>
    have line : (s :: rest).head? ≠ some '/' := by
      rcases separator_cases hs with rfl | rfl | rfl | rfl | rfl | rfl <;> simp
    have block : (s :: rest).head? ≠ some '*' := by
      rcases separator_cases hs with rfl | rfl | rfl | rfl | rfl | rfl <;> simp
    have longer (n : Nat) : ¬ 1 + n ≤ ([] : List Char).length := by simp
    rw [List.nil_append] at fits
    rw [List.nil_append, List.nil_append, if_neg line, if_neg block]
    split at fits
    case isTrue => exact absurd fits (longer _)
    case isFalse noLine =>
      split at fits
      case isTrue => exact absurd fits (longer _)
      case isFalse noBlock =>
        rw [if_neg noLine, if_neg noBlock]
        have alone : (punctExtent '/' ([] ++ after)).2 ≤ ([] : List Char).length := fits
        exact punctExtent_append hs '/' alone
  | cons d ds =>
    have head (es : List Char) : (d :: ds ++ es).head? = some d := rfl
    have tail (es : List Char) : (d :: ds ++ es).tail = ds ++ es := rfl
    simp only [head, tail] at closed fits apart ⊢
    by_cases line : some d = some '/'
    · simp only [if_pos line, List.length_cons] at fits apart ⊢
      have strict (h : (!isLineBreak s) = true) :
          run (fun d => !isLineBreak d) (ds ++ after) < ds.length := by
        have := apart h
        omega
      rw [run_append (by omega) (stops_of_takesIn strict)]
    · by_cases block : some d = some '*'
      · simp only [if_neg line, if_pos block, List.length_cons] at closed fits ⊢
        have inner := LexemeKind.closed_of_ite rfl closed
        have alone := commentTail_closed_of_fits inner (by omega)
        rw [commentTail_append ds _ alone, commentTail_append ds _ alone]
      · simp only [if_neg line, if_neg block] at fits ⊢
        exact punctExtent_append hs '/' fits

/-- Whether a number begins with `c`, when none does that would end past the separator. -/
lemma beginsNumber_append (c : Char)
    (fits : (Number.isDigit c || (c == '.' && (cs ++ after).head?.any Number.isDigit)) = true →
      numberLength (c :: (cs ++ after)) - 1 ≤ cs.length) :
    (Number.isDigit c || (c == '.' && (cs ++ s :: rest).head?.any Number.isDigit)) =
      (Number.isDigit c || (c == '.' && (cs ++ after).head?.any Number.isDigit)) := by
  cases cs with
  | cons d ds => rfl
  | nil =>
    have digit := isDigit_separator hs
    by_cases point : c = '.'
    · subst point
      have none : after.head?.any Number.isDigit = false := by
        by_contra h
        rw [Bool.not_eq_false] at h
        have short := fits (by rw [List.nil_append, h]; rfl)
        cases after with
        | nil => cases h
        | cons d ds =>
          have long := numberLength_point (d := d) h ds
          rw [List.nil_append, List.length_nil] at short
          omega
      simp [digit, none]
    · rw [beq_false_of_ne point, Bool.false_and, Bool.false_and]

/-- A lexeme that ends within `c :: cs` is the same before a separator that it does not take in. -/
theorem extent_append (c : Char) (rest : List Char)
    (closed : (extent c (cs ++ after)).1.isOpen = false)
    (fits : (extent c (cs ++ after)).2 ≤ cs.length)
    (apart : (extent c (cs ++ after)).1.takesIn s = true → (extent c (cs ++ after)).2 < cs.length)
    (carriage : c ≠ '\r' ∨ s ≠ '\n' ∨ cs ≠ []) :
    extent c (cs ++ s :: rest) = extent c (cs ++ after) := by
  by_cases line : c = '\n'
  · subst line
    rfl
  by_cases hc : c = '\r'
  · subst hc
    cases cs with
    | nil =>
      have feed : s ≠ '\n' := by simpa using carriage
      have start (ds : List Char) :
        extent '\r' ds = (.newline, if ds.head? = some '\n' then 1 else 0) := rfl
      rw [start] at fits
      rw [start, start]
      split at fits
      · cases fits
      · simp_all
    | cons d ds => rfl
  by_cases slash : c = '/'
  · subst slash
    exact extent_slash_append hs closed fits apart
  rw [extent_of_ne line hc slash] at closed fits apart
  rw [extent_of_ne line hc slash, extent_of_ne line hc slash]
  by_cases blank : isBlank c = true
  · simp only [if_pos blank] at fits apart ⊢
    rw [run_append fits (stops_of_takesIn apart)]
  simp only [if_neg blank] at closed fits ⊢
  by_cases word : isWordStart c = true
  · simp only [if_pos word] at fits ⊢
    rw [stopsAt_run (isWordPart_separator hs) cs after rest fits]
  simp only [if_neg word] at closed fits ⊢
  have number : (Number.isDigit c || (c == '.' && (cs ++ s :: rest).head?.any Number.isDigit)) =
      (Number.isDigit c || (c == '.' && (cs ++ after).head?.any Number.isDigit)) := by
    refine beginsNumber_append hs c fun h => ?_
    rwa [if_pos h] at fits
  rw [number]
  split
  case isTrue h =>
    rw [if_pos h] at fits
    have same := stopsAt_numberLength hs (c :: cs) after rest
      (by rw [List.cons_append, List.length_cons]; omega)
    rw [List.cons_append, List.cons_append] at same
    rw [same]
  case isFalse h =>
    rw [if_neg h] at closed fits
    split
    case isTrue quote =>
      rw [if_pos quote] at closed fits
      have inner := LexemeKind.closed_of_ite rfl closed
      have alone := stringTail_closed_of_fits inner fits
      rw [stringTail_append c cs _ alone, stringTail_append c cs _ alone]
    case isFalse quote =>
      rw [if_neg quote] at fits
      exact punctExtent_append hs c fits

end Separator

lemma ofChars_nil : ofChars [] = [] := by rw [ofChars]

lemma ofChars_cons (c : Char) (cs : List Char) :
    ofChars (c :: cs) = ⟨(extent c cs).1, c :: cs.take (extent c cs).2⟩ ::
      ofChars (cs.drop (extent c cs).2) := by
  rw [ofChars]

/-- What follows some lexemes of a text are the lexemes of the rest. -/
lemma ofChars_of_append {ls ls' : List Lexeme} (h : ofChars cs = ls ++ ls') :
    ofChars (ls'.flatMap chars) = ls' := by
  induction ls generalizing cs with
  | nil => rw [← List.nil_append ls', ← h, flatMap_chars_ofChars]
  | cons l ls ih =>
    cases cs with
    | nil => simp [ofChars_nil] at h
    | cons c cs =>
      rw [ofChars_cons, List.cons_append] at h
      exact ih (List.cons.inj h).2

/-- The extent of the first lexeme of a text. -/
lemma extent_of_ofChars {l : Lexeme} {ls : List Lexeme} (h : ofChars cs = l :: ls) :
    ∃ c ds, l.chars = c :: ds ∧ extent c (ds ++ ls.flatMap chars) = (l.kind, ds.length) := by
  cases cs with
  | nil => simp [ofChars_nil] at h
  | cons c cs =>
    rw [ofChars_cons] at h
    obtain ⟨rfl, rfl⟩ := List.cons.inj h
    refine ⟨c, _, rfl, ?_⟩
    rw [flatMap_chars_ofChars, List.take_append_drop, List.length_take,
      Nat.min_eq_left (extent_le c cs)]

lemma ofChars_eq_cons {l : Lexeme} {c : Char} {ds after : List Char} (chars : l.chars = c :: ds)
    (h : extent c (ds ++ after) = (l.kind, ds.length)) :
    ofChars (l.chars ++ after) = l :: ofChars after := by
  rw [chars, List.cons_append, ofChars_cons, h, List.take_left, List.drop_left, ← chars]

section Separator

variable {l : Lexeme} {ls ls' : List Lexeme} (hs : isSeparator s = true) (rest : List Char)
include hs

/-- What stands before a lexeme is read the same if a separator follows the lexeme. -/
theorem ofChars_append_last (split : ofChars cs = ls ++ l :: ls')
    (closed : ∀ k ∈ ls, k.kind.isOpen = false) :
    ofChars (ls.flatMap chars ++ (l.chars ++ s :: rest)) =
      ls ++ ofChars (l.chars ++ s :: rest) := by
  induction ls generalizing cs with
  | nil => rfl
  | cons k ks ih =>
    obtain ⟨first, others⟩ := List.forall_mem_cons.mp closed
    have first_of : ofChars cs = k :: (ks ++ l :: ls') := split
    obtain ⟨c, ds, hk, hextent⟩ := extent_of_ofChars first_of
    have rest_of : ofChars cs = [k] ++ (ks ++ l :: ls') := split
    have later := ofChars_of_append rest_of
    obtain ⟨b, es, hl, -⟩ := extent_of_ofChars (ofChars_of_append later)
    have text : ds ++ (ks ++ l :: ls').flatMap chars =
        (ds ++ (ks.flatMap chars ++ l.chars)) ++ ls'.flatMap chars := by simp
    have more : ds.length < (ds ++ (ks.flatMap chars ++ l.chars)).length := by
      simp only [List.length_append, hl, List.length_cons]
      omega
    rw [text] at hextent
    have same := extent_append hs c rest (by rwa [hextent])
      (by rw [hextent]; exact Nat.le_of_lt more) (by rw [hextent]; exact fun _ => more)
      (.inr (.inr (by simp [hl])))
    rw [hextent, List.append_assoc, List.append_assoc] at same
    rw [List.flatMap_cons, List.append_assoc, ofChars_eq_cons hk same, ih later others,
      List.cons_append]

/-- A lexeme is read the same before a separator that it does not take in. -/
lemma ofChars_append_separator (first : ofChars cs = l :: ls')
    (closed : l.kind.isOpen = false) (apart : l.kind.takesIn s = false)
    (carriage : l ≠ ⟨.newline, ['\r']⟩ ∨ s ≠ '\n') :
    ofChars (l.chars ++ s :: rest) = l :: ofChars (s :: rest) := by
  obtain ⟨c, ds, hl, hextent⟩ := extent_of_ofChars first
  refine ofChars_eq_cons hl ?_
  rw [← hextent]
  refine extent_append hs c rest (by rwa [hextent]) (by rw [hextent]) ?_ ?_
  · rw [hextent]
    intro h
    rw [apart] at h
    cases h
  -- a carriage return alone is the one lexeme that the separator can lengthen
  · by_contra h
    simp only [not_or, not_not] at h
    obtain ⟨rfl, rfl, rfl⟩ := h
    have newline : l.kind = .newline := (congrArg Prod.fst hextent).symm
    have whole : l = ⟨.newline, ['\r']⟩ := by rw [← newline, ← hl]
    exact carriage.elim (fun h => h whole) fun h => h rfl

end Separator

/-- Before a line feed a text splits as it does alone; a carriage return at its end takes the line
feed in. -/
theorem ofChars_append (cs rest : List Char) (closed : ∀ l ∈ ofChars cs, l.kind.isOpen = false) :
    ofChars (cs ++ '\n' :: rest) = ofChars cs ++ ⟨.newline, ['\n']⟩ :: ofChars rest ∨
      ∃ ls, ofChars cs = ls ++ [⟨.newline, ['\r']⟩] ∧
        ofChars (cs ++ '\n' :: rest) = ls ++ ⟨.newline, ['\r', '\n']⟩ :: ofChars rest := by
  have separator : isSeparator '\n' = true := rfl
  have feed : ofChars ('\n' :: rest) = ⟨.newline, ['\n']⟩ :: ofChars rest := by
    rw [ofChars_cons]
    rfl
  rcases List.eq_nil_or_concat (ofChars cs) with none | ⟨ls, l, hls⟩
  · have text := flatMap_chars_ofChars cs
    rw [none] at text
    left
    rw [none, ← text, List.flatMap_nil, List.nil_append, feed, List.nil_append]
  · rw [List.concat_eq_append] at hls
    have text := flatMap_chars_ofChars cs
    rw [hls] at closed text ⊢
    obtain ⟨others, last⟩ := List.forall_mem_append.mp closed
    have before := ofChars_append_last separator rest hls others
    rw [← text, List.flatMap_append, List.flatMap_singleton, List.append_assoc, before]
    by_cases carriage : l = ⟨.newline, ['\r']⟩
    · subst carriage
      right
      refine ⟨ls, rfl, ?_⟩
      rw [List.cons_append, ofChars_cons]
      rfl
    · left
      have alone := ofChars_of_append hls
      rw [ofChars_append_separator separator rest alone (last l (List.mem_singleton_self l)) ?_
        (.inl carriage), feed, List.append_assoc, List.singleton_append]
      cases l.kind <;> rfl

end Lexeme

end ScriptDebugger
