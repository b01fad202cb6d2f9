import Mathlib.Tactic.Lemma
import ScriptDebugger.Machine.Interpreter

/-!
# Runs as iterated steps

`run` counts a bound down; `steps` counts the steps themselves. A run ends in
the first final state among the iterates, so its result does not depend on the
bound, and what every step preserves holds at the end.
-/

namespace ScriptDebugger.Machine

variable {e : Setting}

/-- The state after `n` steps. -/
def steps (e : Setting) : (n : Nat) → Machine → Machine
  | 0, m => m
  | n + 1, m => steps e n (m.step e)

lemma steps_add (a b : Nat) (m : Machine) : m.steps e (a + b) = (m.steps e a).steps e b := by
  induction a generalizing m with
  | zero => rw [Nat.zero_add]; rfl
  | succ a ih =>
    rw [Nat.add_right_comm]
    exact ih (m.step e)

lemma steps_succ (n : Nat) (m : Machine) : m.steps e (n + 1) = (m.steps e n).step e :=
  steps_add n 1 m

/-- What every step preserves holds after any number of steps. -/
lemma steps_preserve {P : Machine → Prop} (preserved : ∀ m, P m → P (m.step e))
    {m : Machine} (h : P m) (n : Nat) : P (m.steps e n) := by
  induction n generalizing m with
  | zero => exact h
  | succ n ih => exact ih (preserved m h)

lemma step_of_isFinal {m : Machine} (h : m.isFinal = true) : m.step e = m := by
  obtain ⟨store, calls, output, control, pending⟩ := m
  cases pending with
  | nil => cases control <;> first | rfl | simp [isFinal] at h
  | cons p ps => simp [isFinal] at h

lemma steps_of_isFinal {m : Machine} (h : m.isFinal = true) (n : Nat) : m.steps e n = m := by
  induction n with
  | zero => rfl
  | succ n ih => rw [steps, step_of_isFinal h, ih]

/-- A run gives the final state that it reaches within its bound. -/
theorem run_eq_some_iff {fuel : Nat} {m m' : Machine} :
    m.run e fuel = some m' ↔ m'.isFinal = true ∧ ∃ n, n ≤ fuel ∧ m.steps e n = m' := by
  induction fuel generalizing m with
  | zero =>
    constructor
    · intro h
      by_cases hf : m.isFinal = true
      · simp only [run, hf, if_true, Option.some.injEq] at h
        exact ⟨h ▸ hf, 0, Nat.le_refl 0, h⟩
      · simp [run, hf] at h
    · rintro ⟨hf, n, hn, rfl⟩
      have : n = 0 := by omega
      subst this
      simpa [run, steps] using hf
  | succ fuel ih =>
    by_cases hf : m.isFinal = true
    · constructor
      · intro h
        simp only [run, hf, if_true, Option.some.injEq] at h
        exact ⟨h ▸ hf, 0, Nat.zero_le _, h⟩
      · rintro ⟨-, n, -, rfl⟩
        simp [run, hf, steps_of_isFinal hf]
    · simp only [run, hf, if_false, Bool.false_eq_true]
      rw [ih]
      constructor
      · rintro ⟨hf', n, hn, h⟩
        exact ⟨hf', n + 1, by omega, h⟩
      · rintro ⟨hf', n, hn, h⟩
        cases n with
        | zero =>
          subst h
          exact absurd hf' hf
        | succ n => exact ⟨hf', n, by omega, h⟩

/-- A run that has ended has done so with any greater bound, too. -/
lemma run_mono {fuel fuel' : Nat} {m m' : Machine} (h : m.run e fuel = some m')
    (le : fuel ≤ fuel') : m.run e fuel' = some m' := by
  obtain ⟨hf, n, hn, same⟩ := run_eq_some_iff.mp h
  exact run_eq_some_iff.mpr ⟨hf, n, Nat.le_trans hn le, same⟩

/-- `m` runs to the final state `m'`, however many steps that takes. -/
def Ends (e : Setting) (m m' : Machine) : Prop := m'.isFinal = true ∧ ∃ n, m.steps e n = m'

lemma ends_of_run {fuel : Nat} {m m' : Machine} (h : m.run e fuel = some m') : Ends e m m' := by
  obtain ⟨hf, n, -, hn⟩ := run_eq_some_iff.mp h
  exact ⟨hf, n, hn⟩

/-- Once final, always final: two counts of steps that both end give one state. -/
lemma steps_eq_of_isFinal {m : Machine} {a b : Nat} (h : (m.steps e a).isFinal = true)
    (hab : a ≤ b) : m.steps e b = m.steps e a := by
  have split : b = a + (b - a) := by omega
  rw [split, steps_add, steps_of_isFinal h]

lemma Ends.unique {m a b : Machine} (ha : Ends e m a) (hb : Ends e m b) : a = b := by
  obtain ⟨fa, i, rfl⟩ := ha
  obtain ⟨fb, j, rfl⟩ := hb
  by_cases h : i ≤ j
  · exact (steps_eq_of_isFinal fa h).symm
  · exact steps_eq_of_isFinal fb (by omega)

/-- A run that ends, ends from every state on its way. -/
lemma Ends.steps {m m' : Machine} (h : Ends e m m') (n : Nat) : Ends e (m.steps e n) m' := by
  obtain ⟨hf, k, rfl⟩ := h
  refine ⟨hf, k, ?_⟩
  rw [← steps_add, Nat.add_comm, steps_add, steps_of_isFinal hf]

end ScriptDebugger.Machine
