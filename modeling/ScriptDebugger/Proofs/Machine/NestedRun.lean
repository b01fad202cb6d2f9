import ScriptDebugger.Proofs.Machine.Captured
import ScriptDebugger.Proofs.Machine.NestedStep
import ScriptDebugger.Proofs.Machine.Restored

/-!
# Runs inside one function more

A run inside one function more goes along with the run of the script on its own
until nothing is left of the function's body. The script's own run then takes
one step more, which ends the activation of the program and changes nothing of
the outcome (`Nests.run`).
-/

namespace ScriptDebugger

lemma Pending.nested_eq_leave {p : Pending} : p.nested = .leave ↔ p = .leave := by
  cases p <;> simp [nested]

lemma Control.isResult_nested (c : Control) : c.nested.isResult = c.isResult := by
  cases c <;> rfl

namespace Machine

variable {n : Nesting} {e e' : Setting} {m m' : Machine}

/-- Everything that `m` comes to is sound and refers to scopes that there are. -/
def Followed (e : Setting) (m : Machine) : Prop :=
  ∀ k, (∃ K os, Sound e K os (m.steps e k)) ∧ (m.steps e k).Scoped e

lemma Followed.step (h : m.Followed e) : (m.step e).Followed e := fun k => h (k + 1)

namespace Nests

/-- The run inside ends where only the program's activation is left to end. -/
lemma isFinal_iff (h : m.Nests n m') : m'.isFinal = true ↔ m.BackAt [.leave] := by
  have pending := h.pending
  rw [isFinal_iff_backAt, BackAt, BackAt, h.control, Control.isResult_nested]
  refine and_congr_right fun _ => ⟨fun hp => ?_, fun hp => ?_⟩
  · rw [hp, List.nil_append, List.map_eq_singleton_iff] at pending
    obtain ⟨p, hp, last⟩ := pending
    rw [hp, Pending.nested_eq_leave.mp last]
  · rw [hp] at pending
    exact List.self_eq_append_left.mp pending

lemma not_isFinal (h : m.Nests n m') : m.isFinal = false := by
  refine Bool.eq_false_iff.mpr fun final => ?_
  have pending := h.pending
  rw [(isFinal_iff_backAt.mp final).2] at pending
  simp at pending

end Nests

/-- The end of the program's activation is the end of the run, with the same outcome. -/
lemma step_of_backAt_leave (h : m.BackAt [.leave]) :
    (m.step e).isFinal = true ∧ (m.step e).store = m.store ∧ (m.step e).output = m.output ∧
      ∀ scope, Interpreter.outcomeOf scope (m.step e) = Interpreter.outcomeOf scope m := by
  obtain ⟨store, calls, output, control, pending⟩ := m
  obtain ⟨result, hp⟩ := h
  have hp : pending = [.leave] := hp
  subst hp
  cases control with
  | value v => exact ⟨rfl, rfl, rfl, fun _ => rfl⟩
  | done => exact ⟨rfl, rfl, rfl, fun _ => rfl⟩
  | abrupt a => cases a <;> exact ⟨rfl, rfl, rfl, fun _ => rfl⟩
  | _ => cases result

/-- Both runs end within `fuel` and one step more, the one in a state that goes along with that of
the other. The activation that is left is one of `as`, but for its program counter. -/
def Nests.EndTogether (n : Nesting) (e e' : Setting) (fuel : Nat) (as : List Activation)
    (m m' : Machine) : Prop :=
  ∃ mid mid' : Machine, m'.run e' fuel = some mid' ∧ m.run e (fuel + 1) = some (mid.step e) ∧
    mid.Nests n mid' ∧ mid.BackAt [.leave] ∧ SameButPc mid.calls.toList as

section

variable {as : List Activation} (h : m.Nests n m') (unwinds : m.Unwinds [.leave] as)
include h unwinds

lemma Nests.endTogether_of_isFinal (final : m'.isFinal = true) (fuel : Nat) :
    Nests.EndTogether n e e' fuel as m m' := by
  have back := h.isFinal_iff.mp final
  have last := (step_of_backAt_leave (e := e) back).1
  refine ⟨m, m', run_eq_some_iff.mpr ⟨final, 0, Nat.zero_le _, rfl⟩, ?_, h, back,
    unwinds.backAt back⟩
  exact run_eq_some_iff.mpr ⟨last, 1, Nat.le_add_left 1 fuel, rfl⟩

/-- Either neither run ends within its bound, or both do. -/
theorem Nests.run (he : e.Nests n e') (hw : e.tree.WellFormed) (followed : m.Followed e)
    (fuel : Nat) :
    (m'.run e' fuel = none ∧ m.run e (fuel + 1) = none) ∨
      Nests.EndTogether n e e' fuel as m m' := by
  induction fuel generalizing m m' with
  | zero =>
    cases final : m'.isFinal with
    | true => exact .inr (h.endTogether_of_isFinal unwinds final 0)
    | false =>
      obtain ⟨⟨K, os, sound⟩, inScope⟩ := followed 0
      have next := h.step he hw sound inScope final
      exact .inl ⟨by simp [Machine.run, final],
        by simp [Machine.run, h.not_isFinal, next.not_isFinal]⟩
  | succ fuel ih =>
    cases final : m'.isFinal with
    | true => exact .inr (h.endTogether_of_isFinal unwinds final (fuel + 1))
    | false =>
      obtain ⟨⟨K, os, sound⟩, inScope⟩ := followed 0
      have next := h.step he hw sound inScope final
      have going : ¬ m.BackAt [.leave] := fun back => by simp [h.isFinal_iff.mpr back] at final
      have run : m.run e (fuel + 2) = (m.step e).run e (fuel + 1) := by
        rw [Machine.run, h.not_isFinal]
        rfl
      have run' : m'.run e' (fuel + 1) = (m'.step e').run e' fuel := by
        rw [Machine.run, final]
        rfl
      simp only [Nests.EndTogether, run, run']
      exact ih next (unwinds.step going) followed.step

end

end Machine

end ScriptDebugger
