import Mathlib.Tactic.Lemma
import ScriptDebugger.Machine.State

/-!
# What pending entries leave of a call stack

Two kinds of entry change the call stack as they are passed: one ends the
innermost activation, one goes back to an outer scope in it. `unwind` passes a
list of entries at once. A call stack is compared up to the program counter of
its innermost activation, which any work may move.
-/

namespace ScriptDebugger

/-- Whether the call stack changes as an entry is passed. -/
def Pending.unwinds : Pending → Bool
  | leave | restoreScope _ => true
  | _ => false

/-- The activation without regard to its program counter. -/
def Activation.placeless (a : Activation) : Activation := { a with pc := 0 }

/-- The same activations, but for the program counter of the innermost one. -/
def SameButPc (as bs : List Activation) : Prop :=
  as.modifyHead Activation.placeless = bs.modifyHead Activation.placeless

/-- What is left of a call stack, innermost activation first, when entries have been passed. -/
def unwind : List Pending → List Activation → List Activation
  | [], as => as
  | .leave :: ps, as => unwind ps as.tail
  | .restoreScope outer :: ps, as => unwind ps (as.modifyHead fun a => { a with scope := outer })
  | _ :: ps, as => unwind ps as

namespace SameButPc

variable {as bs cs : List Activation}

lemma refl (as : List Activation) : SameButPc as as := rfl

lemma symm (h : SameButPc as bs) : SameButPc bs as := Eq.symm h

lemma trans (h : SameButPc as bs) (h' : SameButPc bs cs) : SameButPc as cs := Eq.trans h h'

lemma of_pc (as : List Activation) (id : NodeId) :
    SameButPc (as.modifyHead fun a => { a with pc := id }) as := by
  cases as <;> rfl

lemma cons_iff {b : Activation} :
    SameButPc as (b :: bs) ↔ ∃ pc, as = { b with pc } :: bs := by
  constructor
  · intro h
    cases as with
    | nil => cases h
    | cons a as =>
      obtain ⟨head, rfl⟩ := List.cons.inj h
      have scope : a.placeless.scope = b.placeless.scope := congrArg Activation.scope head
      have name : a.placeless.name = b.placeless.name := congrArg Activation.name head
      refine ⟨a.pc, ?_⟩
      rw [show b.scope = a.scope from scope.symm, show b.name = a.name from name.symm]
  · rintro ⟨pc, rfl⟩
    rfl

lemma nil_iff : SameButPc as [] ↔ as = [] := by
  cases as <;> simp [SameButPc]

lemma tail (h : SameButPc as bs) : as.tail = bs.tail := by
  cases bs with
  | nil => rw [nil_iff.mp h]
  | cons b bs =>
    obtain ⟨pc, rfl⟩ := cons_iff.mp h
    rfl

lemma modifyScope (h : SameButPc as bs) (scope : ScopeId) :
    SameButPc (as.modifyHead fun a => { a with scope })
      (bs.modifyHead fun a => { a with scope }) := by
  cases bs with
  | nil => rw [nil_iff.mp h]; rfl
  | cons b bs =>
    obtain ⟨pc, rfl⟩ := cons_iff.mp h
    rfl

/-- Where only program counters differ, passing entries leaves no other difference. -/
lemma unwind (h : SameButPc as bs) (ps : List Pending) :
    SameButPc (unwind ps as) (ScriptDebugger.unwind ps bs) := by
  induction ps generalizing as bs with
  | nil => exact h
  | cons p ps ih =>
    cases p with
    | leave =>
      simp only [ScriptDebugger.unwind, h.tail]
      exact refl _
    | restoreScope outer => exact ih (h.modifyScope outer)
    | _ => exact ih h

end SameButPc

variable {as : List Activation}

lemma unwind_append (ps qs : List Pending) : unwind (ps ++ qs) as = unwind qs (unwind ps as) := by
  induction ps generalizing as with
  | nil => rfl
  | cons p ps ih => cases p <;> exact ih

lemma unwind_cons {p : Pending} (hp : p.unwinds = false) (ps : List Pending) :
    unwind (p :: ps) as = unwind ps as := by
  cases p <;> first | rfl | simp [Pending.unwinds] at hp

end ScriptDebugger
