import Mathlib
import ScriptDebugger.Number.Binary64

/-!
# Rounded quotients are numbers

The bits of a rounded quotient do not go beyond those of an infinity, so the double
that they make is never what is not a number (`isNaN_nearest`).
-/

namespace ScriptDebugger.Binary64

open Float.Model (Format)
open Float.Model.UnpackedFloat

/-- Bits are kept as they are unless they are those of what is not a number. -/
lemma isNaN_ofBits {bits : UInt64} (number : ¬ (@isNaNBits Format.binary64 bits.toBitVec = true)) :
    (Float.ofBits bits).isNaN = false := by
  have packed : pack Format.binary64 (unpack Format.binary64 bits.toBitVec) = bits.toBitVec := by
    rw [pack_unpack, if_neg number]
  have valid : Format.binary64.Valid bits.toBitVec :=
    ⟨fun top nonzero => absurd (decide_eq_true ⟨top, nonzero⟩) number⟩
  change (unpack Format.binary64 (pack Format.binary64 (unpack Format.binary64 _))).isNaN = false
  rw [packed, Bool.eq_false_iff, ne_eq, isNaN_unpack_iff_of_valid valid]
  intro same
  rw [same] at number
  exact number isNaNBits_packedNaN

lemma nearestBits_le (num den : Nat) : nearestBits num den ≤ infinityBits := by
  unfold nearestBits
  split
  · exact Nat.zero_le _
  · exact Nat.min_le_left _ _

/-- With a sign or without one, bits up to those of an infinity are a number. -/
lemma not_isNaNBits {bits : BitVec 64} (bound : bits.toNat % Nat.pow 2 63 ≤ infinityBits) :
    ¬ (@isNaNBits Format.binary64 bits = true) := by
  have bound : bits.toNat % 2 ^ 63 ≤ 2047 * 2 ^ 52 := bound
  simp only [isNaNBits, decide_eq_true_eq, not_and, not_not, unpackExponent_def, unpackMantissa_def]
  intro top
  apply BitVec.eq_of_toNat_eq
  have top := congrArg BitVec.toNat top
  rw [BitVec.extractLsb'_toNat, Nat.shiftRight_eq_div_pow] at top ⊢
  change bits.toNat / 2 ^ 52 % 2 ^ 11 = 2047 at top
  change bits.toNat / 2 ^ 0 % 2 ^ 52 = 0
  omega

theorem isNaN_nearest (negative : Bool) (num den : Nat) :
    (nearest negative num den).isNaN = false := by
  have bound := nearestBits_le num den
  refine isNaN_ofBits (not_isNaNBits ?_)
  change (nearestBits num den + if negative then 2 ^ 63 else 0) % 2 ^ 64 % 2 ^ 63 ≤ 2047 * 2 ^ 52
  change nearestBits num den ≤ 2047 * 2 ^ 52 at bound
  split <;> omega

end ScriptDebugger.Binary64
