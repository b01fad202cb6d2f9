import Mathlib.Tactic.Lemma
import ScriptDebugger.Machine.Frame

/-!
# Call stacks as lists

A call stack is read from the innermost activation outward, as a snapshot of it
is. Each operation says what it does to that list. A snapshot of a stack that
is not empty is a valid chain, and the walk along its links visits all of it.
-/

namespace ScriptDebugger

namespace CallStack

/-- The activations, innermost first. -/
def toList (c : CallStack) : List Activation := c.activations.toList.reverse

lemma ext_toList {c c' : CallStack} (h : c.toList = c'.toList) (hm : c.maxDepth = c'.maxDepth) :
    c = c' := by
  obtain ⟨as, maxDepth⟩ := c
  obtain ⟨bs, maxDepth'⟩ := c'
  rw [mk.injEq]
  exact ⟨Array.ext' (List.reverse_inj.mp h), hm⟩

lemma length_toList (c : CallStack) : c.toList.length = c.depth := by
  simp [toList, depth]

lemma top?_eq_head? (c : CallStack) : c.top? = c.toList.head? := by
  simp [top?, toList]

lemma toList_pop (c : CallStack) : c.pop.toList = c.toList.tail := by
  simp [pop, toList]

lemma toList_modifyTop (c : CallStack) (f : Activation → Activation) :
    (c.modifyTop f).toList = c.toList.modifyHead f := by
  obtain ⟨⟨as⟩, maxDepth⟩ := c
  rcases List.eq_nil_or_concat as with rfl | ⟨as, a, rfl⟩
  · rfl
  · have last : (as ++ [a]).modify as.length f = as ++ [f a] := by
      rw [List.modify_eq_take_cons_drop (by simp)]
      simp
    simp [toList, modifyTop, List.concat_eq_append, last]

/-- There is room for an activation exactly below the limit. -/
lemma push?_of_lt {c : CallStack} (a : Activation) (room : c.depth < c.maxDepth) :
    ∃ c', c.push? a = some c' ∧ c'.toList = a :: c.toList ∧ c'.maxDepth = c.maxDepth := by
  refine ⟨_, if_pos room, ?_, rfl⟩
  simp [toList]

lemma push?_of_not_lt {c : CallStack} (a : Activation) (full : ¬ c.depth < c.maxDepth) :
    c.push? a = none := if_neg full

lemma framesFrom_length (place : Nat) (as : List Activation) :
    (framesFrom place as).length = as.length := by
  induction as generalizing place with
  | nil => rfl
  | cons a rest ih => simp [framesFrom, ih]

lemma getElem?_framesFrom (place : Nat) (as : List Activation) (i : Nat) :
    (framesFrom place as)[i]? = as[i]?.map fun a =>
      ⟨a.pc, a.scope, a.name, if i + 1 < as.length then some (place + i + 1) else none⟩ := by
  induction as generalizing place i with
  | nil => rfl
  | cons a rest ih =>
    cases i with
    | zero => cases rest <;> simp [framesFrom]
    | succ i =>
      simp only [framesFrom, List.getElem?_cons_succ, ih, List.length_cons,
        Nat.add_lt_add_iff_right]
      have shift : place + 1 + i + 1 = place + (i + 1) + 1 := by omega
      rw [shift]

/-- A snapshot has one frame for each activation. -/
lemma length_capture (c : CallStack) : c.capture.length = c.depth := by
  rw [FrameChain.length, ← length_toList]
  exact framesFrom_length 0 c.toList

lemma getElem?_capture (c : CallStack) (i : Nat) :
    c.capture.frames[i]? = c.toList[i]?.map fun a =>
      ⟨a.pc, a.scope, a.name, if i + 1 < c.depth then some (i + 1) else none⟩ := by
  have h := getElem?_framesFrom 0 c.toList i
  rw [length_toList, Nat.zero_add] at h
  exact h

lemma top?_capture (c : CallStack) :
    c.capture.top?.map (fun f => (f.pc, f.scope, f.name)) =
      c.top?.map fun a => (a.pc, a.scope, a.name) := by
  rw [top?_eq_head?, FrameChain.top?, List.head?_eq_getElem?, List.head?_eq_getElem?,
    getElem?_capture]
  cases c.toList[0]? <;> rfl

end CallStack

namespace FrameChain

lemma badLink?_eq_none {length : Nat} {fs : List Frame} {place : Nat}
    (outward : ∀ i f parent, fs[i]? = some f → f.parent = some parent →
      place + i < parent ∧ parent < length) : badLink? length place fs = none := by
  induction fs generalizing place with
  | nil => rfl
  | cons f rest ih =>
    have later : badLink? length (place + 1) rest = none := by
      refine ih fun i g parent hg hp => ?_
      have := outward (i + 1) g parent hg hp
      omega
    cases hp : f.parent with
    | none => simp only [badLink?, hp, later]
    | some parent =>
      have := outward 0 f parent rfl hp
      have fine : ¬ (parent ≤ place ∨ length ≤ parent) := by omega
      simp only [badLink?, hp, fine, if_false, later]

/-- Each frame but the last links to the next one. -/
def Chained (c : FrameChain) : Prop :=
  ∀ i f, c.frames[i]? = some f → f.parent = if i + 1 < c.length then some (i + 1) else none

lemma Chained.validate {c : FrameChain} (h : c.Chained) (nonempty : 0 < c.length) :
    c.validate = .ok () := by
  have hne : c.frames.isEmpty = false := by
    cases hc : c.frames with
    | nil => simp [length, hc] at nonempty
    | cons f rest => rfl
  have links : badLink? c.frames.length 0 c.frames = none := by
    refine badLink?_eq_none fun i f parent hf hp => ?_
    have step := h i f hf
    rw [hp] at step
    by_cases hi : i + 1 < c.length
    · rw [if_pos hi] at step
      have : parent = i + 1 := Option.some.inj step
      have : i + 1 < c.frames.length := hi
      omega
    · rw [if_neg hi] at step
      cases step
  simp [FrameChain.validate, hne, links]

lemma Chained.walkFrom {c : FrameChain} (h : c.Chained) {limit i : Nat}
    (hl : c.length ≤ i + limit) : c.walkFrom limit (some i) = c.frames.drop i := by
  induction limit generalizing i with
  | zero =>
    have : c.frames.length ≤ i := hl
    rw [List.drop_eq_nil_of_le this]
    rfl
  | succ limit ih =>
    simp only [FrameChain.walkFrom]
    by_cases hi : i < c.frames.length
    · have link := h i c.frames[i] (List.getElem?_eq_getElem hi)
      simp only [List.getElem?_eq_getElem hi]
      rw [List.drop_eq_getElem_cons hi, link]
      by_cases hlast : i + 1 < c.length
      · rw [if_pos hlast, ih (by omega)]
      · rw [if_neg hlast, List.drop_eq_nil_of_le (Nat.le_of_not_lt hlast)]
        cases limit <;> rfl
    · simp only [List.getElem?_eq_none (Nat.le_of_not_lt hi)]
      rw [List.drop_eq_nil_of_le (Nat.le_of_not_lt hi)]

/-- The walk visits every frame once, in order. -/
lemma Chained.walk {c : FrameChain} (h : c.Chained) {limit : Nat} (hl : c.length ≤ limit) :
    c.walk limit = c.frames :=
  h.walkFrom (by omega)

end FrameChain

lemma CallStack.capture_chained (c : CallStack) : c.capture.Chained := by
  intro i f hf
  rw [getElem?_capture, Option.map_eq_some_iff] at hf
  obtain ⟨a, -, rfl⟩ := hf
  rw [length_capture]

end ScriptDebugger
