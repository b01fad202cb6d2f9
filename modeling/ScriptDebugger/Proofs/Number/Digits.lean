import Mathlib.Data.List.Basic
import ScriptDebugger.Number.Decimal

/-!
# Decimal digits

The digits of a natural number are read back as that number, and digits are those
of the number that they write unless they begin with a zero.
-/

namespace ScriptDebugger.Number

variable {c : Char} {ds : List Char}

lemma isDigit_iff : isDigit c = true ↔ 48 ≤ c.toNat ∧ c.toNat ≤ 57 := by
  rw [isDigit, decide_eq_true_iff, Char.le_def, Char.le_def, UInt32.le_iff_toNat_le,
    UInt32.le_iff_toNat_le]
  rfl

lemma digitValue_of_isDigit (digit : isDigit c = true) : digitValue c = c.toNat - 48 :=
  if_pos digit

lemma digitValue_lt (digit : isDigit c = true) : digitValue c < 10 := by
  have range := isDigit_iff.mp digit
  rw [digitValue_of_isDigit digit]
  omega

/-- A digit is all there is to the number that it writes. -/
lemma toDigits_digitValue (digit : isDigit c = true) : Nat.toDigits 10 (digitValue c) = [c] := by
  have range := isDigit_iff.mp digit
  have small := digitValue_lt digit
  have back : Nat.digitChar (digitValue c) = c := by
    rw [← Char.toNat_inj, Nat.toNat_digitChar_of_lt_ten small, digitValue_of_isDigit digit]
    omega
  rw [Nat.toDigits_of_lt_base small, back]

lemma isDigit_of_mem_toDigits {n : Nat} (h : c ∈ Nat.toDigits 10 n) : isDigit c = true := by
  have digit := Nat.isDigit_of_mem_toDigits (by decide) (by decide) h
  simpa [isDigit, Char.isDigit, Char.le_def] using digit

lemma ofDigits_eq_ofDigitChars (digits : ∀ d ∈ ds, isDigit d = true) :
    ofDigits 10 ds = Nat.ofDigitChars 10 ds 0 := by
  rw [ofDigits, Nat.ofDigitChars_eq_foldl]
  refine List.foldl_ext _ _ 0 fun n d hd => ?_
  rw [digitValue_of_isDigit (digits d hd)]
  rfl

lemma ofDigits_toDigits (n : Nat) : ofDigits 10 (Nat.toDigits 10 n) = n := by
  rw [ofDigits_eq_ofDigitChars fun _ h => isDigit_of_mem_toDigits h, Nat.ofDigitChars_ten_toDigits]

/-- Digits that are read behind those of a positive number stand behind them. -/
lemma toDigits_foldl (digits : ∀ d ∈ ds, isDigit d = true) {n : Nat} (pos : 0 < n) :
    Nat.toDigits 10 (ds.foldl (fun n c => 10 * n + digitValue c) n) = Nat.toDigits 10 n ++ ds := by
  induction ds generalizing n with
  | nil => rw [List.append_nil]; rfl
  | cons d ds ih =>
    have digit := digits d List.mem_cons_self
    have joined := Nat.toDigits_append_toDigits (b := 10) (by decide) pos (digitValue_lt digit)
    rw [List.foldl_cons, ih (fun c hc => digits c (List.mem_cons_of_mem d hc)) (by omega),
      ← joined, toDigits_digitValue digit, List.append_assoc]
    rfl

lemma toDigits_ofDigits (digits : ∀ d ∈ c :: ds, isDigit d = true) (first : c ≠ '0') :
    Nat.toDigits 10 (ofDigits 10 (c :: ds)) = c :: ds := by
  have digit := digits c List.mem_cons_self
  have pos : 0 < digitValue c := by
    have range := isDigit_iff.mp digit
    have other : c.toNat ≠ 48 := fun zero => first (Char.toNat_inj.mp zero)
    rw [digitValue_of_isDigit digit]
    omega
  have start : 10 * 0 + digitValue c = digitValue c := Nat.zero_add _
  rw [ofDigits, List.foldl_cons, start,
    toDigits_foldl (fun d hd => digits d (List.mem_cons_of_mem c hd)) pos,
    toDigits_digitValue digit]
  rfl

/-- The digits of a positive number begin with another digit than zero. -/
lemma head?_toDigits_ne {n : Nat} (pos : 0 < n) : (Nat.toDigits 10 n).head? ≠ some '0' := by
  induction n using Nat.strongRecOn with
  | ind n ih =>
    rw [Nat.toDigits_eq_if (by decide)]
    split
    case isTrue small =>
      have table : ∀ k < 10, 0 < k → [Nat.digitChar k].head? ≠ some '0' := by decide
      exact table n small pos
    case isFalse large =>
      rw [List.head?_append]
      intro first
      rcases Option.or_eq_some_iff.mp first with first | ⟨empty, -⟩
      · exact ih (n / 10) (by omega) (by omega) first
      · exact Nat.toDigits_ne_nil (List.head?_eq_none_iff.mp empty)

end ScriptDebugger.Number
