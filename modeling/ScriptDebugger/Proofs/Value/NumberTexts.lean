import ScriptDebugger.Proofs.Number.Binary64
import ScriptDebugger.Proofs.Token.Numbers
import ScriptDebugger.Value.Convert

/-!
# Texts that write numbers

Which texts write a number (`Numeric`), and that a literal in a script and the same
characters in a string are the same number (`Store.toNumber_of_number`).
-/

namespace ScriptDebugger

open Number (isDigit isHexDigit Decimal signs)

namespace Text

variable {cs : List Char}

lemma not_isBlank_of_range {c : Char} (low : 0x20 < c.toNat) (high : c.toNat < 0x85) :
    isBlank c = false := by
  simp only [isBlank, Bool.or_eq_false_iff, Bool.and_eq_false_iff, decide_eq_false_iff_not,
    beq_eq_false_iff_ne]
  omega

lemma not_isBlank_of_isHexDigit {c : Char} (digit : isHexDigit c = true) : isBlank c = false := by
  simp only [isHexDigit, isDigit, Bool.or_eq_true, decide_eq_true_eq, Char.le_def,
    UInt32.le_iff_toNat_le] at digit
  change ((48 ≤ c.toNat ∧ c.toNat ≤ 57) ∨ 97 ≤ c.toNat ∧ c.toNat ≤ 102) ∨
    65 ≤ c.toNat ∧ c.toNat ≤ 70 at digit
  exact not_isBlank_of_range (by omega) (by omega)

lemma trim_eq_self (plain : ∀ c ∈ cs, isBlank c = false) : trim cs = cs := by
  have keep {ds : List Char} (h : ∀ c ∈ ds, isBlank c = false) : ds.dropWhile isBlank = ds := by
    cases ds with
    | nil => rfl
    | cons d ds => exact List.dropWhile_cons_of_neg (by simp [h d])
  rw [trim, trimStart, keep plain, trimEnd, keep fun c hc => plain c (List.mem_reverse.mp hc),
    List.reverse_reverse]

end Text

namespace Number

variable {cs : List Char}

lemma not_isBlank_of_plain {c : Char} (h : Plain c) : Text.isBlank c = false := by
  rcases h with digit | other
  · exact Text.not_isBlank_of_isHexDigit (by rw [isHexDigit, digit]; rfl)
  · simp only [List.mem_cons, List.not_mem_nil, or_false] at other
    rcases other with rfl | rfl | rfl | rfl | rfl <;> rfl

/-- A letter other than the mark of an exponent is in no decimal literal. -/
lemma not_plain_of_isAlpha {c : Char} (letter : c.isAlpha = true) (small : c ≠ 'e')
    (capital : c ≠ 'E') : ¬ Plain c := by
  rintro (digit | other)
  · rw [not_isAlpha_of_isDigit digit] at letter
    cases letter
  · simp only [List.mem_cons, List.not_mem_nil, or_false] at other
    rcases other with rfl | rfl | rfl | rfl | rfl
    · cases letter
    · exact small rfl
    · exact capital rfl
    · cases letter
    · cases letter

lemma ofChars_of_plain (nonempty : cs ≠ []) (plain : ∀ c ∈ cs, Plain c) :
    ofChars cs = (readFloat? cs).getD Binary64.nan := by
  have free {c : Char} (letter : c.isAlpha = true) (small : c ≠ 'e') (capital : c ≠ 'E') : c ∉ cs :=
    fun hc => not_plain_of_isAlpha letter small capital (plain c hc)
  have noWord : ¬ (cs.any fun c => c.isAlpha && c != 'e' && c != 'E') = true := by
    simp only [List.any_eq_true, Bool.and_eq_true, bne_iff_ne, not_exists, not_and]
    exact fun c hc ⟨letter, small⟩ capital => free letter small capital hc
  have noInfinity {ds : List Char} (h : 'I' ∈ ds) : cs ≠ ds := by
    rintro rfl
    exact free rfl (by decide) (by decide) h
  unfold ofChars
  split
  case h_1 => exact absurd rfl nonempty
  case h_2 => exact absurd (by simp) (free (rfl : 'x'.isAlpha = true) (by decide) (by decide))
  case h_3 => exact absurd (by simp) (free (rfl : 'X'.isAlpha = true) (by decide) (by decide))
  case h_4 =>
    rw [if_neg (not_or.mpr ⟨noInfinity (by decide), noInfinity (by decide)⟩),
      if_neg (noInfinity (by decide)), if_neg noWord]

lemma ofChars_of_hex {mark : Char} (letter : mark = 'x' ∨ mark = 'X') (ds : List Char) :
    ofChars ('0' :: mark :: ds) = (readHex? ds).getD Binary64.nan := by
  rcases letter with rfl | rfl <;> rfl

lemma not_isBlank_of_readHex? {ds : List Char} (h : (readHex? ds).isSome = true) :
    ∀ c ∈ ds, Text.isBlank c = false := by
  have digits := ((isSome_readHex? ds).mp h).digits
  unfold dropPlus at digits
  split at digits
  case h_1 =>
    refine List.forall_mem_cons.mpr ⟨rfl, fun c hc => ?_⟩
    exact Text.not_isBlank_of_isHexDigit (digits c hc)
  case h_2 => exact fun c hc => Text.not_isBlank_of_isHexDigit (digits c hc)

end Number

namespace Token

variable {cs : List Char} {x : Float}

/-- The characters of a number in a script write that number. -/
lemma ofChars_of_readNumber (begins : Lexeme.BeginsNumber cs) (read : readNumber cs = .ok x) :
    (∀ c ∈ cs, Text.isBlank c = false) ∧ Number.ofChars cs = x := by
  by_cases hex : IsHex cs
  · obtain ⟨mark, ds, letter, rfl⟩ := hex
    rw [readNumber_hex letter] at read
    cases value : Number.readHex? ds with
    | none => rw [value] at read; cases read
    | some y =>
      rw [value] at read
      cases read
      rw [Number.ofChars_of_hex letter, value]
      refine ⟨?_, rfl⟩
      refine List.forall_mem_cons.mpr ⟨rfl, List.forall_mem_cons.mpr ⟨?_, ?_⟩⟩
      · rcases letter with rfl | rfl <;> rfl
      · exact Number.not_isBlank_of_readHex? (by rw [value]; rfl)
  · rw [readNumber_of_not_isHex hex] at read
    cases value : Number.readFloat? cs with
    | none => rw [value] at read; cases read
    | some y =>
      rw [value] at read
      cases read
      obtain ⟨c, rest, rfl, first⟩ := begins.first
      have decimal := (Number.isSome_readFloat? first).mp (by rw [value]; rfl)
      have plain := decimal.plain
      refine ⟨fun c hc => Number.not_isBlank_of_plain (plain c hc), ?_⟩
      rw [Number.ofChars_of_plain decimal.ne_nil plain, value]
      rfl

/-- A text that is one number is the lexeme of that number. -/
lemma readNumber_of_lone {text : String} {newline comment : Bool} {e : Token}
    (lexed : ofText text =
      .ok [⟨.number x, ⟨0, text.utf8ByteSize⟩, newline, comment⟩, e]) :
    Lexeme.BeginsNumber text.toList ∧ readNumber text.toList = .ok x := by
  have lexed' : ofText text =
      .ok ([] ++ ⟨.number x, ⟨0, text.utf8ByteSize⟩, newline, comment⟩ :: [e]) := lexed
  obtain ⟨before, l, behind, split, read, span, -⟩ := exists_lexeme lexed' rfl
  obtain ⟨start, stop⟩ := Span.mk.inj span
  have inside : ∀ k ∈ before ++ behind, k ∈ Lexeme.ofText text := fun k hk => by
    rw [split]
    rcases List.mem_append.mp hk with hk | hk <;> simp [hk]
  have total : totalSize (before ++ l :: behind) = text.utf8ByteSize := by
    rw [← split, Lexeme.ofText, totalSize_ofChars, byteLength_toList]
  rw [totalSize_append, totalSize_cons] at total
  have empty : totalSize (before ++ behind) = 0 := by
    rw [totalSize_append]
    omega
  obtain ⟨rfl, rfl⟩ := List.append_eq_nil_iff.mp (eq_nil_of_totalSize inside empty)
  obtain ⟨number, read⟩ := number_of_kindOf? read
  have alone : Lexeme.ofChars text.toList = [l] := split
  obtain ⟨whole, begins, -⟩ := Lexeme.number_of_ofChars alone number
  rw [List.flatMap_nil, List.append_nil] at whole
  exact ⟨begins, whole ▸ read⟩

end Token

/-- A text that is one number of a script converts to that number. -/
theorem Store.toNumber_of_number {text : String} {x : Float} {newline comment : Bool} {e : Token}
    (lexed : Token.ofText text =
      .ok [⟨.number x, ⟨0, text.utf8ByteSize⟩, newline, comment⟩, e]) (s : Store) :
    s.toNumber (.string text) = x := by
  obtain ⟨begins, read⟩ := Token.readNumber_of_lone lexed
  obtain ⟨plain, same⟩ := Token.ofChars_of_readNumber begins read
  rw [Store.toNumber, Number.ofText, Text.trim_eq_self plain]
  exact same

/-- A fraction with an exponent. -/
theorem Store.toNumber_of_number_exponent :
    Token.ofText "2.5e1" = .ok [⟨.number 25, ⟨0, 5⟩, false, false⟩,
        ⟨.endOfInput, .point 5, false, false⟩] ∧
      Store.empty.toNumber (.string "2.5e1") = 25 := by
  have split : Lexeme.ofText "2.5e1" = [⟨.number, ['2', '.', '5', 'e', '1']⟩] := by decide +kernel
  have read : Token.readNumber ['2', '.', '5', 'e', '1'] = .ok 25 := by decide +kernel
  have lexed : Token.ofText "2.5e1" = .ok [⟨.number 25, ⟨0, 5⟩, false, false⟩,
      ⟨.endOfInput, .point 5, false, false⟩] := by
    rw [Token.ofText, split, Token.ofLexemes_cons]
    simp only [Token.kindOf?, read]
    rfl
  exact ⟨lexed, Store.toNumber_of_number lexed Store.empty⟩

namespace Number

/-- Characters that write a number. Before hexadecimal digits one of `hexSigns` may stand. -/
inductive Numeric (hexSigns : List (List Char)) : List Char → Prop
  | empty : Numeric hexSigns []
  | infinity {sign : List Char} (signed : sign ∈ signs) :
    Numeric hexSigns (sign ++ "Infinity".toList)
  | hex {mark : Char} {sign ds : List Char} (letter : mark = 'x' ∨ mark = 'X')
    (signed : sign ∈ hexSigns) (nonempty : ds ≠ []) (digits : ∀ d ∈ ds, isHexDigit d = true) :
    Numeric hexSigns ('0' :: mark :: (sign ++ ds))
  | decimal {sign body : List Char} (signed : sign ∈ signs) (literal : Decimal body) :
    Numeric hexSigns (sign ++ body)

/-- Hexadecimal digits of a number from `2 ^ 64` on. -/
def Exceeds (cs : List Char) : Prop :=
  ∃ mark ds, (mark = 'x' ∨ mark = 'X') ∧ cs = '0' :: mark :: ds ∧
    UInt64.size ≤ ofDigits 16 (dropPlus ds)

variable {cs : List Char}

lemma isNaN_nan : Binary64.nan.isNaN = true := by decide +kernel

lemma isSome_of_isNaN_getD {value : Option Float}
    (h : (value.getD Binary64.nan).isNaN = false) : value.isSome = true := by
  cases value with
  | none => exact absurd isNaN_nan (by simpa using h)
  | some x => rfl

lemma isNaN_of_readHex? {x : Float} (read : readHex? cs = some x) : x.isNaN = false := by
  simp only [readHex?] at read
  split at read
  case isTrue => cases read
  case isFalse =>
    split at read
    case isTrue =>
      cases read
      exact Binary64.isNaN_nearest _ _ _
    case isFalse => cases read

lemma isNaN_toFloat (n : Numeral) : n.toFloat.isNaN = false := by
  simp only [Numeral.toFloat]
  split
  · exact Binary64.isNaN_nearest _ _ _
  split
  · exact Binary64.isNaN_nearest _ _ _
  split <;> exact Binary64.isNaN_nearest _ _ _

lemma exists_plus (ds : List Char) : ∃ sign ∈ [[], ['+']], ds = sign ++ dropPlus ds := by
  unfold dropPlus
  split
  · exact ⟨['+'], by simp, rfl⟩
  · exact ⟨[], by simp, rfl⟩

lemma dropPlus_append {sign ds : List Char} (signed : sign ∈ [[], ['+']]) (nonempty : ds ≠ [])
    (digits : ∀ d ∈ ds, isHexDigit d = true) : dropPlus (sign ++ ds) = ds := by
  obtain ⟨d, ds, rfl⟩ := List.exists_cons_of_ne_nil nonempty
  have digit := digits d List.mem_cons_self
  simp only [List.mem_cons, List.not_mem_nil, or_false] at signed
  rcases signed with rfl | rfl
  · unfold dropPlus
    split
    case h_1 plus =>
      obtain ⟨rfl, -⟩ := List.cons.inj plus
      exact absurd digit (by decide)
    case h_2 => rfl
  · rfl

lemma numeric_of_readHex? {mark : Char} {ds : List Char} (letter : mark = 'x' ∨ mark = 'X')
    (read : (readHex? ds).isSome = true) :
    Numeric [[], ['+']] ('0' :: mark :: ds) ∧ ¬ Exceeds ('0' :: mark :: ds) := by
  have hex := (isSome_readHex? ds).mp read
  constructor
  · obtain ⟨sign, signed, hds⟩ := exists_plus ds
    rw [hds]
    exact .hex letter signed hex.nonempty hex.digits
  · rintro ⟨mark', ds', -, same, large⟩
    obtain rfl : ds = ds' := (List.cons.inj (List.cons.inj same).2).2
    exact absurd hex.fits (Nat.not_lt_of_le large)

lemma numeric_of_isNaN_ofChars (h : (ofChars cs).isNaN = false) :
    Numeric [[], ['+']] cs ∧ ¬ Exceeds cs := by
  unfold ofChars at h
  split at h
  case h_1 => exact ⟨.empty, by rintro ⟨_, _, _, ⟨⟩, _⟩⟩
  case h_2 ds => exact numeric_of_readHex? (.inl rfl) (isSome_of_isNaN_getD h)
  case h_3 ds => exact numeric_of_readHex? (.inr rfl) (isSome_of_isNaN_getD h)
  case h_4 _ small capital =>
    have noHex : ¬ Exceeds cs := by
      rintro ⟨mark, ds, rfl | rfl, rfl, -⟩
      · exact small ds rfl
      · exact capital ds rfl
    refine ⟨?_, noHex⟩
    split at h
    case isTrue word =>
      rcases word with rfl | rfl
      · exact .infinity (by decide : [] ∈ signs)
      · exact .infinity (by decide : ['+'] ∈ signs)
    split at h
    case isTrue word =>
      subst word
      exact .infinity (by decide : ['-'] ∈ signs)
    split at h
    case isTrue =>
      rw [isNaN_nan] at h
      cases h
    case isFalse plain =>
      have read := isSome_of_isNaN_getD h
      rw [readFloat?, Option.isSome_or, Bool.or_eq_true] at read
      obtain ⟨sign, signed, hcs⟩ := exists_sign cs
      rcases read with decimal | word
      · rw [readDecimal?, Option.isSome_map, isSome_readNumeral?] at decimal
        rw [hcs]
        exact .decimal signed decimal
      · obtain ⟨c, rest, hc, letter, small, capital⟩ := exists_letter_of_readWord? word
        have mem : c ∈ cs := by
          rw [hcs, hc]
          simp
        exact absurd (List.any_eq_true.mpr ⟨c, mem, by simp [letter, small, capital]⟩) plain

lemma isNaN_ofChars_of_numeric (numeric : Numeric [[], ['+']] cs) (fits : ¬ Exceeds cs) :
    (ofChars cs).isNaN = false := by
  cases numeric with
  | empty => decide +kernel
  | infinity signed => rcases signs_cases signed with rfl | rfl | rfl <;> decide +kernel
  | @hex mark sign ds letter signed nonempty digits =>
    have rest := dropPlus_append signed nonempty digits
    have small : ofDigits 16 ds < UInt64.size := by
      by_contra large
      exact fits ⟨mark, _, letter, rfl, by rw [rest]; omega⟩
    have read : (readHex? (sign ++ ds)).isSome = true := by
      rw [isSome_readHex?, rest]
      exact ⟨nonempty, digits, small⟩
    obtain ⟨x, hx⟩ := Option.isSome_iff_exists.mp read
    rw [ofChars_of_hex letter, hx]
    exact isNaN_of_readHex? hx
  | @decimal sign body signed literal =>
    have read : (readNumeral? (sign ++ body)).isSome = true := by
      rw [isSome_readNumeral?, readSign_append signed literal.unsigned]
      exact literal
    obtain ⟨n, hn⟩ := Option.isSome_iff_exists.mp read
    have plain := List.forall_mem_append.mpr ⟨plain_of_mem_sign signed, literal.plain⟩
    rw [ofChars_of_plain (List.append_ne_nil_of_right_ne_nil _ literal.ne_nil) plain, readFloat?,
      readDecimal?, hn]
    exact isNaN_toFloat n

end Number

/-- A text converts to a number just if it writes one, blanks at its ends aside, and a hexadecimal
one is not too large. Hexadecimal digits may have a plus sign before them. -/
theorem Store.isNaN_toNumber_eq_false_iff (s : Store) (text : String) :
    (s.toNumber (.string text)).isNaN = false ↔
      Number.Numeric [[], ['+']] (Text.trim text.toList) ∧
        ¬ Number.Exceeds (Text.trim text.toList) :=
  ⟨Number.numeric_of_isNaN_ofChars, fun h => Number.isNaN_ofChars_of_numeric h.1 h.2⟩

/-- A plus sign before hexadecimal digits, which they have in no literal. -/
theorem Store.toNumber_signed_hex :
    Store.empty.toNumber (.string "0x+1") = 1 ∧
      (Store.empty.toNumber (.string "0x+1")).isNaN = false ∧
      ¬ Number.Numeric [[]] (Text.trim "0x+1".toList) := by
  refine ⟨by decide +kernel, by decide +kernel, fun numeric => ?_⟩
  have trimmed : Text.trim "0x+1".toList = ['0', 'x', '+', '1'] := by decide
  generalize Text.trim "0x+1".toList = cs at numeric trimmed
  cases numeric with
  | empty => cases trimmed
  | infinity signed =>
    rcases Number.signs_cases signed with rfl | rfl | rfl <;> exact absurd trimmed (by decide)
  | hex letter signed nonempty digits =>
    obtain rfl := List.mem_singleton.mp signed
    obtain rfl := (List.cons.inj (List.cons.inj trimmed).2).2
    exact absurd (digits '+' List.mem_cons_self) (by decide)
  | decimal signed literal =>
    have plain := List.forall_mem_append.mpr ⟨Number.plain_of_mem_sign signed, literal.plain⟩
    have letter : Number.Plain 'x' := plain 'x' (by rw [trimmed]; decide)
    exact Number.not_plain_of_isAlpha rfl (by decide) (by decide) letter

end ScriptDebugger
