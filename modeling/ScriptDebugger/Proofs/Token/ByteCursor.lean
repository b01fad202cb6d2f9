import ScriptDebugger.Proofs.Source.Positions
import ScriptDebugger.Proofs.Token.Lexemes
import ScriptDebugger.Token.ByteScan

/-!
# Reading bytes for characters

A cursor that stands where a character begins (`ByteCursor.At`) and reads bytes
stands where a character begins again: behind a run, a string, a comment or a
number of the length that is read off the characters. A scanner tests bytes
only for what gives the same answer for a character and for each of its bytes
(`Bytewise`): all bytes of a character of more than one are above the narrow ones.
-/

namespace ScriptDebugger

/-- A character of one byte. -/
def Narrow (d : Char) : Prop := d.toNat < 128

instance : DecidablePred Narrow := fun d => inferInstanceAs (Decidable (d.toNat < 128))

lemma utf8EncodeChar_of_narrow {d : Char} (h : Narrow d) :
    String.utf8EncodeChar d = [d.toUInt8] := by
  have small : d.val.toNat ≤ 127 := Nat.le_of_lt_succ h
  simp only [String.utf8EncodeChar, if_pos small]
  rfl

lemma val_ofUInt8 (b : UInt8) : (Char.ofUInt8 b).val = b.toUInt32 := rfl

lemma ofUInt8_toUInt8 {d : Char} (h : Narrow d) : Char.ofUInt8 d.toUInt8 = d := by
  have small : d.val.toNat < 128 := h
  refine Char.ext (UInt32.toNat_inj.mp ?_)
  simp only [val_ofUInt8, Char.toUInt8, UInt8.toNat_toUInt32, UInt32.toNat_toUInt8]
  omega

lemma toNat_ofUInt8 (b : UInt8) : (Char.ofUInt8 b).toNat = b.toNat := by
  rw [Char.toNat, val_ofUInt8, UInt8.toNat_toUInt32]

/-- Each byte of a wide character is above the narrow ones. -/
lemma le_of_mem_utf8EncodeChar {d : Char} (h : ¬ Narrow d) {b : UInt8}
    (hb : b ∈ String.utf8EncodeChar d) : 128 ≤ b.toNat := by
  have wide : ¬ d.val.toNat ≤ 127 := fun small => h (Nat.lt_succ_of_le small)
  simp only [String.utf8EncodeChar, if_neg wide] at hb
  split at hb
  · simp only [List.mem_cons, List.not_mem_nil, or_false] at hb
    rcases hb with rfl | rfl <;> simp only [UInt8.toNat_ofNat'] <;> omega
  · split at hb
    · simp only [List.mem_cons, List.not_mem_nil, or_false] at hb
      rcases hb with rfl | rfl | rfl <;> simp only [UInt8.toNat_ofNat'] <;> omega
    · simp only [List.mem_cons, List.not_mem_nil, or_false] at hb
      rcases hb with rfl | rfl | rfl | rfl <;> simp only [UInt8.toNat_ofNat'] <;> omega

/-- The first byte of a character says how many there are. -/
lemma widthFrom_of_utf8EncodeChar {d : Char} {first : UInt8} {others : List UInt8}
    (h : String.utf8EncodeChar d = first :: others) : ByteCursor.widthFrom first = d.utf8Size := by
  rw [← String.length_utf8EncodeChar, h]
  simp only [ByteCursor.widthFrom, UInt8.le_iff_toNat_le]
  simp only [String.utf8EncodeChar] at h
  have limits : (0xbf : UInt8).toNat = 191 ∧ (0xdf : UInt8).toNat = 223 ∧
    (0xef : UInt8).toNat = 239 := ⟨rfl, rfl, rfl⟩
  simp only [limits]
  split at h
  · obtain ⟨rfl, rfl⟩ := List.cons.inj h
    rw [if_pos (by rw [UInt8.toNat_ofNat']; omega)]
    rfl
  · split at h
    · obtain ⟨rfl, rfl⟩ := List.cons.inj h
      rw [if_neg (by rw [UInt8.toNat_ofNat']; omega), if_pos (by rw [UInt8.toNat_ofNat']; omega)]
      rfl
    · split at h
      · obtain ⟨rfl, rfl⟩ := List.cons.inj h
        rw [if_neg (by rw [UInt8.toNat_ofNat']; omega), if_neg (by rw [UInt8.toNat_ofNat']; omega),
          if_pos (by rw [UInt8.toNat_ofNat']; omega)]
        rfl
      · obtain ⟨rfl, rfl⟩ := List.cons.inj h
        rw [if_neg (by rw [UInt8.toNat_ofNat']; omega), if_neg (by rw [UInt8.toNat_ofNat']; omega),
          if_neg (by rw [UInt8.toNat_ofNat']; omega)]
        rfl

/-- A test that gives the same answer for a character and for each of its bytes. -/
def Bytewise (p : Char → Bool) : Prop :=
  ∀ d, ∀ b ∈ String.utf8EncodeChar d, p (.ofUInt8 b) = p d

/-- What only narrow characters pass is read off their bytes. -/
lemma bytewise_of_narrow {p : Char → Bool} (narrow : ∀ d, p d = true → Narrow d) : Bytewise p := by
  intro d b hb
  by_cases hd : Narrow d
  · rw [utf8EncodeChar_of_narrow hd, List.mem_singleton] at hb
    rw [hb, ofUInt8_toUInt8 hd]
  · have wide := le_of_mem_utf8EncodeChar hd hb
    have char : p d = false := Bool.eq_false_iff.mpr (mt (narrow d) hd)
    have byte : p (.ofUInt8 b) = false := by
      refine Bool.eq_false_iff.mpr (mt (narrow _) ?_)
      rw [Narrow, toNat_ofUInt8]
      omega
    rw [char, byte]

lemma Bytewise.not {p : Char → Bool} (h : Bytewise p) : Bytewise fun d => !p d :=
  fun d b hb => congrArg (!·) (h d b hb)

lemma bytewise_beq {x : Char} (h : Narrow x) : Bytewise (· == x) :=
  bytewise_of_narrow fun _ hd => (beq_iff_eq.mp hd) ▸ h

namespace ByteCursor

variable {c : ByteCursor} {cs left : List Char} {d : Char} {n : Nat}

/-- The cursor stands in the bytes of `cs` where the characters `left` are left. -/
def At (c : ByteCursor) (cs left : List Char) : Prop :=
  ∃ read, read ++ left = cs ∧ c.bytes.data.toList = utf8Bytes cs ∧ c.pos = byteLength read

lemma size_eq_length (c : ByteCursor) : c.bytes.size = c.bytes.data.toList.length := by
  rw [Array.length_toList, ByteArray.size_data]

lemma At.size (h : c.At cs left) : c.bytes.size = c.pos + byteLength left := by
  obtain ⟨read, rfl, bytes, pos⟩ := h
  rw [size_eq_length, bytes, length_utf8Bytes, pos, byteLength_append]

/-- What is behind and what is left make up the text. -/
lemma At.total (h : c.At cs left) : c.pos + byteLength left = byteLength cs := by
  obtain ⟨read, rfl, -, pos⟩ := h
  rw [pos, byteLength_append]

lemma At.peek (h : c.At cs left) (n : Nat) : c.peek n = (utf8Bytes left)[n]?.getD 0 := by
  have size := h.size
  obtain ⟨read, rfl, bytes, pos⟩ := h
  have behind : (utf8Bytes (read ++ left))[c.pos + n]? = (utf8Bytes left)[n]? := by
    rw [pos, utf8Bytes_append, ← length_utf8Bytes, List.getElem?_append_right (by omega),
      Nat.add_sub_cancel_left]
  rw [← behind, ← bytes, Array.getElem?_toList, ByteCursor.peek]
  by_cases inside : c.pos + n < c.bytes.size
  · rw [dif_pos inside, ByteArray.getElem_eq_getElem_data,
      Array.getElem?_eq_getElem (by rwa [ByteArray.size_data]), Option.getD_some]
  · rw [dif_neg inside, Array.getElem?_eq_none (by rw [ByteArray.size_data]; omega),
      Option.getD_none]

lemma At.atEnd (h : c.At cs left) : c.atEnd = left.isEmpty := by
  have size := h.size
  cases left with
  | nil =>
    have all : byteLength [] = 0 := rfl
    exact decide_eq_true (by omega)
  | cons d left =>
    have pos := d.utf8Size_pos
    rw [byteLength_cons] at size
    exact decide_eq_false (by omega)

/-- A test tells of the character at hand by its first byte. -/
lemma At.current (h : c.At cs left) {p : Char → Bool} (bytewise : Bytewise p)
    (nul : p '\x00' = false) : p c.current = left.head?.any p := by
  rw [ByteCursor.current, ahead, h.peek]
  cases left with
  | nil => exact nul
  | cons d left =>
    cases hd : String.utf8EncodeChar d with
    | nil => exact absurd hd String.utf8EncodeChar_ne_nil
    | cons first others =>
      have same := bytewise d first (hd ▸ List.mem_cons_self)
      rw [utf8Bytes_cons, hd]
      exact same

lemma At.current_eq_iff (h : c.At cs left) {x : Char} (narrow : Narrow x) (nul : x ≠ '\x00') :
    c.current = x ↔ left.head? = some x := by
  have same := h.current (bytewise_beq narrow) (beq_false_of_ne (Ne.symm nul))
  rw [← beq_iff_eq, same]
  cases left <;> simp

lemma advance_of_more (more : c.atEnd = false) : c.advance = { c with pos := c.pos + 1 } := by
  rw [ByteCursor.advance, more]
  rfl

lemma advance_of_atEnd (ended : c.atEnd = true) : c.advance = c := by
  rw [ByteCursor.advance, if_pos ended]

lemma ahead_succ (more : c.atEnd = false) (n : Nat) : c.ahead (n + 1) = c.advance.ahead n := by
  rw [advance_of_more more]
  simp only [ahead, ByteCursor.peek, Nat.add_assoc, Nat.add_comm 1 n]

/-- Within the text the cursor moves as told. -/
lemma advanceBy_eq (inside : c.pos + n ≤ c.bytes.size) :
    c.advanceBy n = { c with pos := c.pos + n } := by
  induction n generalizing c with
  | zero => rfl
  | succ n ih =>
    have more : c.atEnd = false := decide_eq_false (by omega)
    have step : c.advance.pos + n ≤ c.advance.bytes.size := by
      rw [advance_of_more more]
      dsimp only
      omega
    rw [advanceBy, ih step, advance_of_more more, Nat.add_assoc, Nat.add_comm 1 n]

/-- The place behind a character is as many bytes on as it has. -/
lemma At.behind (h : c.At cs (d :: left)) : (c.advanceBy d.utf8Size).At cs left := by
  have size := h.size
  rw [byteLength_cons] at size
  rw [advanceBy_eq (by omega)]
  obtain ⟨read, rfl, bytes, pos⟩ := h
  refine ⟨read ++ [d], by simp, bytes, ?_⟩
  rw [byteLength_append, byteLength_cons, pos]
  rfl

lemma At.advanceChar (h : c.At cs (d :: left)) : c.advanceChar.At cs left := by
  cases hd : String.utf8EncodeChar d with
  | nil => exact absurd hd String.utf8EncodeChar_ne_nil
  | cons first others =>
    have here : c.peek 0 = first := by rw [h.peek, utf8Bytes_cons, hd]; rfl
    rw [ByteCursor.advanceChar, here, widthFrom_of_utf8EncodeChar hd]
    exact h.behind

lemma At.advance (h : c.At cs (d :: left)) (narrow : Narrow d) : c.advance.At cs left := by
  have one : d.utf8Size = 1 := by
    rw [← String.length_utf8EncodeChar, utf8EncodeChar_of_narrow narrow]
    rfl
  have behind := h.behind
  rwa [one] at behind

/-- While every byte passes, bytes are eaten one by one. -/
lemma eatWhile_advanceBy {p : Char → Bool} (inside : c.pos + n ≤ c.bytes.size)
    (pass : ∀ i < n, p (c.ahead i) = true) : c.eatWhile p = (c.advanceBy n).eatWhile p := by
  induction n generalizing c with
  | zero => rfl
  | succ n ih =>
    have more : c.atEnd = false := decide_eq_false (by omega)
    have first : p c.current = true := pass 0 (Nat.zero_lt_succ n)
    have step : c.eatWhile p = c.advance.eatWhile p := by rw [eatWhile, dif_pos ⟨more, first⟩]
    have onward : c.advance.pos + n ≤ c.advance.bytes.size := by
      rw [advance_of_more more]
      dsimp only
      omega
    rw [step, advanceBy]
    refine ih onward fun i hi => ?_
    rw [← ahead_succ more]
    exact pass (i + 1) (Nat.succ_lt_succ hi)

/-- The bytes of the character at hand. -/
lemma At.ahead_mem (h : c.At cs (d :: left)) (hn : n < d.utf8Size) :
    ∃ b ∈ String.utf8EncodeChar d, c.ahead n = .ofUInt8 b := by
  rw [← String.length_utf8EncodeChar] at hn
  refine ⟨(String.utf8EncodeChar d)[n], List.getElem_mem hn, ?_⟩
  rw [ahead, h.peek, utf8Bytes_cons, List.getElem?_append_left hn, List.getElem?_eq_getElem hn]
  rfl

lemma At.inside (h : c.At cs (d :: left)) : c.pos + d.utf8Size ≤ c.bytes.size := by
  have size := h.size
  rw [byteLength_cons] at size
  omega

/-- What is eaten byte by byte is eaten character by character. -/
lemma At.eatWhile (h : c.At cs left) {p : Char → Bool} (bytewise : Bytewise p) :
    (c.eatWhile p).At cs (left.drop (Lexeme.run p left)) := by
  induction left generalizing c with
  | nil =>
    have ended : ¬ (c.atEnd = false ∧ p c.current = true) := by simp [h.atEnd]
    rw [ByteCursor.eatWhile, dif_neg ended]
    exact h
  | cons d left ih =>
    have pass (i : Nat) (hi : i < d.utf8Size) : p (c.ahead i) = p d := by
      obtain ⟨b, hb, seen⟩ := h.ahead_mem hi
      rw [seen, bytewise d b hb]
    rw [Lexeme.run_cons]
    cases hp : p d with
    | true =>
      rw [eatWhile_advanceBy h.inside fun i hi => (pass i hi).trans hp]
      exact ih h.behind
    | false =>
      have stop : ¬ (c.atEnd = false ∧ p c.current = true) := by
        rw [ByteCursor.current, pass 0 d.utf8Size_pos, hp]
        simp
      rw [ByteCursor.eatWhile, dif_neg stop]
      exact h

/-- What is read off the bytes is what is read off the characters that are left: the same answer,
and the place that many characters on. -/
def Agrees {α : Type} (r : α × ByteCursor) (cs left : List Char) (e : α × Nat) : Prop :=
  r.1 = e.1 ∧ r.2.At cs (left.drop e.2)

lemma narrow_of_le {d high : Char} (le : d ≤ high) (narrow : Narrow high) : Narrow d :=
  Nat.lt_of_le_of_lt (UInt32.le_iff_toNat_le.mp le) narrow

lemma narrow_of_isDigit (h : Number.isDigit d = true) : Narrow d :=
  narrow_of_le (of_decide_eq_true h).2 (by decide)

lemma narrow_of_isHexDigit (h : Number.isHexDigit d = true) : Narrow d := by
  simp only [Number.isHexDigit, Bool.or_eq_true, decide_eq_true_eq] at h
  rcases h with (h | h) | h
  · exact narrow_of_isDigit h
  · exact narrow_of_le h.2 (by decide)
  · exact narrow_of_le h.2 (by decide)

lemma narrow_of_isWordStart (h : Lexeme.isWordStart d = true) : Narrow d := by
  simp only [Lexeme.isWordStart, Bool.or_eq_true, decide_eq_true_eq, beq_iff_eq] at h
  rcases h with ((h | h) | rfl) | rfl
  · exact narrow_of_le h.2 (by decide)
  · exact narrow_of_le h.2 (by decide)
  · decide
  · decide

lemma bytewise_isDigit : Bytewise Number.isDigit := bytewise_of_narrow fun _ => narrow_of_isDigit

lemma bytewise_isHexDigit : Bytewise Number.isHexDigit :=
  bytewise_of_narrow fun _ => narrow_of_isHexDigit

lemma bytewise_isWordPart : Bytewise Lexeme.isWordPart :=
  bytewise_of_narrow fun _ h =>
    (Bool.or_eq_true_iff.mp h).elim narrow_of_isWordStart narrow_of_isDigit

lemma At.fraction (h : c.At cs left) :
    (if c.current = '.' then c.advance.eatWhile Number.isDigit else c).At cs
      (left.drop (Lexeme.fractionLength left)) := by
  have point := h.current_eq_iff (x := '.') (by decide) (by decide)
  cases left with
  | nil => simpa [point] using h
  | cons d left =>
    rw [Lexeme.fractionLength_cons]
    by_cases hd : d = '.'
    · subst hd
      have digits := (h.advance (by decide)).eatWhile bytewise_isDigit
      rw [if_pos (point.mpr rfl), if_pos rfl, Nat.add_comm, List.drop_succ_cons]
      exact digits
    · rw [if_neg (by simpa [point] using hd), if_neg hd]
      exact h

/-- One place ahead of a narrow character stands the next one. -/
lemma At.ahead_one (h : c.At cs (d :: left)) (narrow : Narrow d) {p : Char → Bool}
    (bytewise : Bytewise p) (nul : p '\x00' = false) : p (c.ahead 1) = left.head?.any p := by
  have more : c.atEnd = false := h.atEnd
  rw [ahead_succ more 0]
  exact (h.advance narrow).current bytewise nul

lemma At.ahead_one_eq_iff (h : c.At cs (d :: left)) (narrow : Narrow d) {x : Char}
    (hx : Narrow x) (nul : x ≠ '\x00') : c.ahead 1 = x ↔ left.head? = some x := by
  have more : c.atEnd = false := h.atEnd
  rw [ahead_succ more 0]
  exact (h.advance narrow).current_eq_iff hx nul

lemma run_eq_zero_iff (p : Char → Bool) (cs : List Char) :
    Lexeme.run p cs = 0 ↔ cs.head?.any p = false := by
  cases cs with
  | nil => simp [Lexeme.run]
  | cons d cs =>
    rw [Lexeme.run_cons, List.head?_cons, Option.any_some]
    cases p d <;> simp

lemma At.exponent (h : c.At cs left) :
    c.exponent.At cs (left.drop (Lexeme.exponentLength left)) := by
  have e := h.current_eq_iff (x := 'e') (by decide) (by decide)
  have capital := h.current_eq_iff (x := 'E') (by decide) (by decide)
  rw [ByteCursor.exponent]
  simp only [e, capital]
  cases left with
  | nil => simpa using h
  | cons d left =>
    simp only [List.head?_cons, Option.some.injEq]
    by_cases letter : d = 'e' ∨ d = 'E'
    · have narrow : Narrow d := by rcases letter with rfl | rfl <;> decide
      have next := h.advance narrow
      have more : c.atEnd = false := h.atEnd
      have digit := h.ahead_one narrow bytewise_isDigit rfl
      simp only [if_pos letter, h.ahead_one_eq_iff narrow (x := '+') (by decide) (by decide),
        h.ahead_one_eq_iff narrow (x := '-') (by decide) (by decide)]
      cases left with
      | nil => simpa [Lexeme.exponentLength, digit] using h
      | cons s ds =>
        simp only [List.head?_cons, Option.some.injEq]
        by_cases sign : s = '+' ∨ s = '-'
        · have narrow' : Narrow s := by rcases sign with rfl | rfl <;> decide
          have digit' := next.ahead_one narrow' bytewise_isDigit rfl
          rw [← ahead_succ more] at digit'
          have behind : (c.advanceBy 2).At cs ds := next.advance narrow'
          simp only [Lexeme.exponentLength, if_pos letter, if_pos sign]
          by_cases none : Lexeme.run Number.isDigit ds = 0
          · rw [digit', (run_eq_zero_iff _ ds).mp none, if_pos none]
            exact h
          · have some : ds.head?.any Number.isDigit = true :=
              Bool.not_eq_false _ ▸ mt (run_eq_zero_iff _ ds).mpr none
            have digits := behind.eatWhile bytewise_isDigit
            rw [digit', some, if_pos rfl, if_neg none, Nat.add_comm, List.drop_succ_cons,
              List.drop_succ_cons]
            exact digits
        · have behind : (c.advanceBy 1).At cs (s :: ds) := next
          simp only [Lexeme.exponentLength, if_pos letter, if_neg sign]
          by_cases none : Lexeme.run Number.isDigit (s :: ds) = 0
          · rw [digit, (run_eq_zero_iff _ _).mp none, if_pos none]
            exact h
          · have some : (s :: ds).head?.any Number.isDigit = true :=
              Bool.not_eq_false _ ▸ mt (run_eq_zero_iff _ _).mpr none
            have digits := behind.eatWhile bytewise_isDigit
            rw [digit, some, if_pos rfl, if_neg none, Nat.add_comm, List.drop_succ_cons]
            exact digits
    · simp only [if_neg letter, Lexeme.exponentLength]
      exact h

lemma At.number (h : c.At cs (d :: left)) :
    c.number.At cs ((d :: left).drop (Lexeme.numberLength (d :: left))) := by
  have zero : c.current = '0' ↔ d = '0' := by
    simpa using h.current_eq_iff (x := '0') (by decide) (by decide)
  have hex : (c.current = '0' ∧ (c.ahead 1 = 'x' ∨ c.ahead 1 = 'X')) ↔
      d = '0' ∧ (left.head? = some 'x' ∨ left.head? = some 'X') := by
    rw [zero]
    refine and_congr_right fun hd => ?_
    have narrow : Narrow d := hd ▸ (by decide)
    rw [h.ahead_one_eq_iff narrow (by decide) (by decide),
      h.ahead_one_eq_iff narrow (by decide) (by decide)]
  rw [ByteCursor.number, Lexeme.numberLength_cons]
  simp only [hex]
  split
  case isTrue mark =>
    obtain ⟨rfl, mark⟩ := mark
    cases left with
    | nil => simp at mark
    | cons x left =>
      have narrow : Narrow x := by
        rcases mark with mark | mark <;> cases Option.some.inj mark <;> decide
      have behind : (c.advanceBy 2).At cs left := (h.advance (by decide)).advance narrow
      rw [List.tail_cons, Nat.add_comm, List.drop_succ_cons, List.drop_succ_cons]
      exact behind.eatWhile bytewise_isHexDigit
  case isFalse =>
    have parts := ((h.eatWhile bytewise_isDigit).fraction.exponent).eatWhile bytewise_isWordPart
    simp only [List.drop_drop] at parts
    exact parts

end ByteCursor

end ScriptDebugger
