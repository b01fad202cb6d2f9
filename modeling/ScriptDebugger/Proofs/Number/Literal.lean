import Mathlib
import ScriptDebugger.Number.Decimal

/-!
# Literals of numbers

The grammar of decimal literals (`Decimal`): digits with at most one point among
them, and an optional exponent. The readers take them with a sign in front, and
hexadecimal digits, and nothing else (`isSome_readDecimal?`, `isSome_readHex?`).
-/

namespace ScriptDebugger.Number

def signs : List (List Char) := [[], ['+'], ['-']]

/-- The exponent part of a decimal literal, which may be missing. -/
inductive Exponent : List Char → Prop
  | none : Exponent []
  | some {mark : Char} {sign ds : List Char} (letter : mark = 'e' ∨ mark = 'E')
    (signed : sign ∈ signs) (nonempty : ds ≠ []) (digits : ∀ d ∈ ds, isDigit d = true) :
    Exponent (mark :: (sign ++ ds))

/-- A decimal literal without a sign. With a point in it there are digits on one side at least. -/
inductive Decimal : List Char → Prop
  | whole {ds exponent : List Char} (nonempty : ds ≠ []) (digits : ∀ d ∈ ds, isDigit d = true)
    (tail : Exponent exponent) : Decimal (ds ++ exponent)
  | pointed {ds fs exponent : List Char} (nonempty : ds ++ fs ≠ [])
    (digits : ∀ d ∈ ds ++ fs, isDigit d = true) (tail : Exponent exponent) :
    Decimal (ds ++ '.' :: (fs ++ exponent))

/-- Beginning and end of what digits may be followed by. -/
def EndsDigits (cs : List Char) : Prop := ∀ c ∈ cs.head?, isDigit c = false

lemma not_isDigit_of_mark {c : Char} (h : c = 'e' ∨ c = 'E') : isDigit c = false := by
  rcases h with rfl | rfl <;> rfl

lemma Exponent.ends {cs : List Char} (h : Exponent cs) : EndsDigits cs := by
  cases h with
  | none => simp [EndsDigits]
  | some letter => simpa [EndsDigits] using not_isDigit_of_mark letter

section Digits

variable {ds cs : List Char} (digits : ∀ d ∈ ds, isDigit d = true) (ends : EndsDigits cs)
include digits ends

lemma takeWhile_digits : (ds ++ cs).takeWhile isDigit = ds := by
  rw [List.takeWhile_append_of_pos digits]
  cases cs with
  | nil => simp
  | cons c cs => simp [ends c rfl]

lemma dropWhile_digits : (ds ++ cs).dropWhile isDigit = cs := by
  rw [List.dropWhile_append_of_pos digits]
  cases cs with
  | nil => simp
  | cons c cs => simp [ends c rfl]

end Digits

lemma exists_sign (cs : List Char) : ∃ sign ∈ signs, cs = sign ++ (readSign cs).2 := by
  unfold readSign
  split
  · exact ⟨['-'], by decide, rfl⟩
  · exact ⟨['+'], by decide, rfl⟩
  · exact ⟨[], by decide, rfl⟩

/-- No sign. -/
def Unsigned (cs : List Char) : Prop := ∀ c ∈ cs.head?, c ≠ '+' ∧ c ≠ '-'

lemma signs_cases {sign : List Char} (signed : sign ∈ signs) :
    sign = [] ∨ sign = ['+'] ∨ sign = ['-'] := by
  simpa [signs] using signed

lemma readSign_append {sign body : List Char} (signed : sign ∈ signs) (unsigned : Unsigned body) :
    (readSign (sign ++ body)).2 = body := by
  rcases signs_cases signed with rfl | rfl | rfl
  · rw [List.nil_append]
    unfold readSign
    split
    · exact absurd rfl (unsigned _ rfl).2
    · exact absurd rfl (unsigned _ rfl).1
    · rfl
  · rfl
  · rfl

lemma unsigned_of_digit {c : Char} {cs : List Char} (digit : isDigit c = true) :
    Unsigned (c :: cs) := by
  rintro _ ⟨⟩
  constructor <;> rintro rfl <;> cases digit

lemma isSome_readExponent?_cons (mark : Char) (cs : List Char) :
    (readExponent? (mark :: cs)).isSome = true ↔ (mark = 'e' ∨ mark = 'E') ∧
      (readSign cs).2 ≠ [] ∧ ∀ d ∈ (readSign cs).2, isDigit d = true := by
  by_cases letter : mark = 'e' ∨ mark = 'E'
  · simp [readExponent?, letter]
  · simp [readExponent?, letter]

lemma isSome_readExponent? (cs : List Char) : (readExponent? cs).isSome = true ↔ Exponent cs := by
  constructor
  · intro read
    cases cs with
    | nil => exact .none
    | cons mark cs =>
      obtain ⟨letter, nonempty, digits⟩ := (isSome_readExponent?_cons mark cs).mp read
      obtain ⟨sign, signed, hcs⟩ := exists_sign cs
      exact hcs ▸ .some letter signed nonempty digits
  · intro exponent
    cases exponent with
    | none => rfl
    | @some mark sign ds letter signed nonempty digits =>
      obtain ⟨d, ds, rfl⟩ := List.exists_cons_of_ne_nil nonempty
      have unsigned : Unsigned (d :: ds) := unsigned_of_digit (digits d List.mem_cons_self)
      have rest := readSign_append signed unsigned
      rw [isSome_readExponent?_cons, rest]
      exact ⟨letter, nonempty, digits⟩

lemma Decimal.unsigned {cs : List Char} (h : Decimal cs) : Unsigned cs := by
  cases h with
  | @whole ds exponent nonempty digits =>
    obtain ⟨d, ds, rfl⟩ := List.exists_cons_of_ne_nil nonempty
    exact unsigned_of_digit (digits d (by simp))
  | @pointed ds fs exponent nonempty digits =>
    cases ds with
    | nil => simp [Unsigned]
    | cons d ds => exact unsigned_of_digit (digits d (by simp))

lemma Decimal.ne_nil {cs : List Char} (h : Decimal cs) : cs ≠ [] := by
  cases h with
  | whole nonempty => exact List.append_ne_nil_of_left_ne_nil nonempty _
  | pointed => simp

lemma readFraction_of_exponent {cs : List Char} (h : Exponent cs) : readFraction cs = ([], cs) := by
  cases h with
  | none => rfl
  | some letter => rcases letter with rfl | rfl <;> rfl

lemma readFraction_cases (cs : List Char) :
    (∃ fs rest, cs = '.' :: (fs ++ rest) ∧ (∀ d ∈ fs, isDigit d = true) ∧
      readFraction cs = (fs, rest)) ∨ readFraction cs = ([], cs) := by
  unfold readFraction
  split
  case h_1 cs =>
    left
    refine ⟨_, _, ?_, fun d => List.mem_takeWhile_imp, rfl⟩
    rw [List.takeWhile_append_dropWhile]
  case h_2 => exact .inr rfl

lemma isSome_readNumeral?_iff (cs : List Char) :
    (readNumeral? cs).isSome = true ↔
      let body := (readSign cs).2
      let parts := readFraction (body.dropWhile isDigit)
      body.takeWhile isDigit ++ parts.1 ≠ [] ∧ Exponent parts.2 := by
  simp only [readNumeral?, ← isSome_readExponent?]
  split
  case isTrue none => simp_all
  case isFalse => simp_all

lemma isSome_readNumeral? (cs : List Char) :
    (readNumeral? cs).isSome = true ↔ Decimal (readSign cs).2 := by
  rw [isSome_readNumeral?_iff]
  generalize (readSign cs).2 = body
  dsimp only
  constructor
  · rintro ⟨nonempty, exponent⟩
    have digits : ∀ d ∈ body.takeWhile isDigit, isDigit d = true := fun d => List.mem_takeWhile_imp
    rw [← List.takeWhile_append_dropWhile (p := isDigit) (l := body)]
    rcases readFraction_cases (body.dropWhile isDigit) with ⟨fs, rest, hcs, fraction, read⟩ | read
    · rw [read] at nonempty exponent
      rw [hcs]
      exact .pointed nonempty (List.forall_mem_append.mpr ⟨digits, fraction⟩) exponent
    · rw [read, List.append_nil] at nonempty
      rw [read] at exponent
      exact .whole nonempty digits exponent
  · intro decimal
    cases decimal with
    | whole nonempty digits tail =>
      rw [takeWhile_digits digits tail.ends, dropWhile_digits digits tail.ends,
        readFraction_of_exponent tail, List.append_nil]
      exact ⟨nonempty, tail⟩
    | @pointed ds fs exponent nonempty digits tail =>
      obtain ⟨whole, fraction⟩ := List.forall_mem_append.mp digits
      have ends : EndsDigits ('.' :: (fs ++ exponent)) := by
        rintro _ ⟨⟩
        rfl
      rw [takeWhile_digits whole ends, dropWhile_digits whole ends, readFraction,
        takeWhile_digits fraction tail.ends, dropWhile_digits fraction tail.ends]
      exact ⟨nonempty, tail⟩

/-- The characters of decimal literals and their signs. -/
def Plain (c : Char) : Prop := isDigit c = true ∨ c ∈ ['.', 'e', 'E', '+', '-']

lemma plain_of_mem_sign {sign : List Char} (signed : sign ∈ signs) : ∀ c ∈ sign, Plain c := by
  rcases signs_cases signed with rfl | rfl | rfl
  · simp
  · simp [Plain]
  · simp [Plain]

lemma plain_of_digits {ds : List Char} (digits : ∀ d ∈ ds, isDigit d = true) : ∀ c ∈ ds, Plain c :=
  fun c hc => .inl (digits c hc)

lemma Exponent.plain {cs : List Char} (h : Exponent cs) : ∀ c ∈ cs, Plain c := by
  cases h with
  | none => simp
  | some letter signed _ digits =>
    refine List.forall_mem_cons.mpr ⟨?_, List.forall_mem_append.mpr
      ⟨plain_of_mem_sign signed, plain_of_digits digits⟩⟩
    rcases letter with rfl | rfl <;> exact .inr (by decide)

lemma Decimal.plain {cs : List Char} (h : Decimal cs) : ∀ c ∈ cs, Plain c := by
  cases h with
  | whole _ digits tail =>
    exact List.forall_mem_append.mpr ⟨plain_of_digits digits, tail.plain⟩
  | pointed _ digits tail =>
    obtain ⟨whole, fraction⟩ := List.forall_mem_append.mp (plain_of_digits digits)
    exact List.forall_mem_append.mpr ⟨whole, List.forall_mem_cons.mpr
      ⟨.inr (by decide), List.forall_mem_append.mpr ⟨fraction, tail.plain⟩⟩⟩

lemma not_isAlpha_of_isDigit {c : Char} (digit : isDigit c = true) : c.isAlpha = false := by
  simp only [isDigit, decide_eq_true_eq, Char.le_def, UInt32.le_iff_toNat_le] at digit
  change 48 ≤ c.toNat ∧ c.toNat ≤ 57 at digit
  by_contra letter
  simp only [Char.isAlpha, Char.isUpper, Char.isLower, Bool.not_eq_false, Bool.or_eq_true,
    Bool.and_eq_true, decide_eq_true_eq, UInt32.le_iff_toNat_le, ge_iff_le] at letter
  change (65 ≤ c.toNat ∧ c.toNat ≤ 90) ∨ 97 ≤ c.toNat ∧ c.toNat ≤ 122 at letter
  omega

/-- The words begin with letters, and not with the mark of an exponent. -/
lemma exists_letter_of_readWord? {cs : List Char} (h : (readWord? cs).isSome = true) :
    ∃ c rest, (readSign cs).2 = c :: rest ∧ c.isAlpha = true ∧ c ≠ 'e' ∧ c ≠ 'E' := by
  simp only [readWord?] at h
  generalize (readSign cs).2 = body at h
  have first {d : Char} {ds : List Char} (letter : d.isAlpha = true) (other : d ≠ 'e')
      (word : body.map Char.toLower = d :: ds) :
      ∃ c rest, body = c :: rest ∧ c.isAlpha = true ∧ c ≠ 'e' ∧ c ≠ 'E' := by
    obtain ⟨c, rest, rfl, rfl, -⟩ := List.map_eq_cons_iff.mp word
    rw [Char.isAlpha_toLower_eq_isAlpha] at letter
    refine ⟨c, rest, rfl, letter, ?_, ?_⟩ <;>
      · rintro rfl
        exact other (by decide)
  split at h
  case isTrue word => rcases word with word | word <;> exact first (by decide) (by decide) word
  case isFalse =>
    split at h
    case isTrue word => exact first (by decide) (by decide) word
    case isFalse => cases h

/-- Hexadecimal digits of a number below `2 ^ 64`. -/
structure HexDigits (ds : List Char) : Prop where
  nonempty : ds ≠ []
  digits : ∀ d ∈ ds, isHexDigit d = true
  fits : ofDigits 16 ds < UInt64.size

/-- Where the first character is a digit or a point, what is read is a decimal literal. -/
lemma isSome_readFloat? {c : Char} {cs : List Char} (first : isDigit c = true ∨ c = '.') :
    (readFloat? (c :: cs)).isSome = true ↔ Decimal (c :: cs) := by
  have unsigned : Unsigned (c :: cs) := by
    rcases first with digit | rfl
    · exact unsigned_of_digit digit
    · simp [Unsigned]
  have body : (readSign (c :: cs)).2 = c :: cs := readSign_append (by decide : [] ∈ signs) unsigned
  have noWord : readWord? (c :: cs) = none := by
    by_contra word
    obtain ⟨d, rest, hd, letter, -⟩ :=
      exists_letter_of_readWord? (Option.isSome_iff_ne_none.mpr word)
    obtain ⟨rfl, -⟩ := List.cons.inj (body.symm.trans hd)
    rcases first with digit | rfl
    · rw [not_isAlpha_of_isDigit digit] at letter
      cases letter
    · cases letter
  rw [readFloat?, noWord, Option.or_none, readDecimal?, Option.isSome_map, isSome_readNumeral?,
    body]

lemma isSome_readHex? (cs : List Char) :
    (readHex? cs).isSome = true ↔ HexDigits (dropPlus cs) := by
  simp only [readHex?]
  generalize dropPlus cs = ds
  constructor
  · intro read
    split at read
    case isTrue => cases read
    case isFalse digits =>
      split at read
      case isTrue fits =>
        rw [Bool.or_eq_true, not_or, List.isEmpty_iff, Bool.not_eq_true, Bool.not_eq_false',
          List.all_eq_true] at digits
        exact ⟨digits.1, digits.2, fits⟩
      case isFalse => cases read
  · intro h
    have digits := List.all_eq_true.mpr h.digits
    simp [h.nonempty, digits, h.fits]

end ScriptDebugger.Number
