import Mathlib.Data.List.Perm.Subperm
import ScriptDebugger.Proofs.Machine.CallStack

/-!
# Walks along frame chains

A walk goes from the first frame of a chain along the links, wherever they
lead, and on a chain that leads back to itself it has no end. `FrameChain.Visits`
is the walk without a limit: it holds of the places that a walk stands at one
after another, and of nothing if the walk does not end. Validation looks at every
link, and a walk along links that lead outward ends, since there are only so many
frames (`FrameChain.Outward.exists_visits`).

The snapshot of a call stack is walked through all of its activations. Which ones
are live after any operations is said by `CallStack.Operation.live`, on lists.
-/

namespace ScriptDebugger

namespace FrameChain

/-- A walk from a place, or from no place, ends and has stood at the places `is` by then. -/
inductive Visits (c : FrameChain) : Option Nat → List Nat → Prop
  | ended : Visits c none []
  | outside {i : Nat} (missing : c.frames[i]? = none) : Visits c (some i) []
  | step {i : Nat} {f : Frame} {is : List Nat} (here : c.frames[i]? = some f)
    (rest : Visits c f.parent is) : Visits c (some i) (i :: is)

/-- Each link leads to a frame further from the first one. -/
def Outward (c : FrameChain) : Prop :=
  ∀ i f parent, c.frames[i]? = some f → f.parent = some parent → i < parent ∧ parent < c.length

/-- The walk from the first frame ends. It stands at the places `is`, each further outward than
the one before, and gives their frames. -/
structure Walked (c : FrameChain) (is : List Nat) : Prop where
  ends : c.Visits (some 0) is
  first : is.head? = some 0
  outward : is.Pairwise (· < ·)
  once : is.Nodup
  atMost : is.length ≤ c.length
  frames : ∀ limit, is.length ≤ limit → (c.walk limit).map some = is.map fun i => c.frames[i]?

variable {c : FrameChain} {is : List Nat}

/-- With room for all places a walk with a limit gives what the one without a limit visits. -/
lemma Visits.walkFrom {place : Option Nat} (h : c.Visits place is) {limit : Nat}
    (enough : is.length ≤ limit) :
    (c.walkFrom limit place).map some = is.map fun i => c.frames[i]? := by
  induction h generalizing limit with
  | ended => cases limit <;> rfl
  | outside missing =>
    cases limit with
    | zero => rfl
    | succ limit => simp only [FrameChain.walkFrom, missing, List.map_nil]
  | @step i f is here rest ih =>
    cases limit with
    | zero => cases enough
    | succ limit =>
      have rest := ih (Nat.le_of_succ_le_succ enough)
      simp only [FrameChain.walkFrom, here, List.map_cons, rest]

/-- Only frames of the chain are visited. -/
lemma Visits.lt_length {place : Option Nat} (h : c.Visits place is) : ∀ i ∈ is, i < c.length := by
  induction h with
  | ended | outside _ =>
    intro i hi
    cases hi
  | step here rest ih =>
    intro j hj
    rcases List.mem_cons.mp hj with rfl | hj
    · exact (List.getElem?_eq_some_iff.mp here).1
    · exact ih j hj

lemma length_le_of_nodup (once : is.Nodup) (inside : ∀ i ∈ is, i < c.length) :
    is.length ≤ c.length := by
  have sub : is ⊆ List.range c.length := fun i hi => List.mem_range.mpr (inside i hi)
  have le := (once.subperm sub).length_le
  rwa [List.length_range] at le

lemma Visits.walked (h : c.Visits (some 0) is) (first : is.head? = some 0)
    (outward : is.Pairwise (· < ·)) : c.Walked is where
  ends := h
  first := first
  outward := outward
  once := outward.imp Nat.ne_of_lt
  atMost := length_le_of_nodup (outward.imp Nat.ne_of_lt) h.lt_length
  frames := fun _ enough => h.walkFrom enough

lemma outward_of_badLink? {length place : Nat} {fs : List Frame}
    (fine : badLink? length place fs = none) {i parent : Nat} {f : Frame}
    (here : fs[i]? = some f) (link : f.parent = some parent) :
    place + i < parent ∧ parent < length := by
  induction fs generalizing place i with
  | nil => cases here
  | cons g rest ih =>
    have later : badLink? length (place + 1) rest = none := by
      cases hg : g.parent with
      | none => simpa only [badLink?, hg] using fine
      | some p =>
        simp only [badLink?, hg] at fine
        split at fine
        · cases fine
        · exact fine
    cases i with
    | zero =>
      cases Option.some.inj here
      simp only [badLink?, link] at fine
      split at fine
      case isTrue => cases fine
      case isFalse bad => omega
    | succ i =>
      have := ih later here
      omega

/-- A chain is valid exactly if it has a frame and all its links lead outward. -/
lemma validate_eq_ok_iff : c.validate = .ok () ↔ 0 < c.length ∧ c.Outward := by
  constructor
  · intro valid
    simp only [FrameChain.validate] at valid
    split at valid
    case isTrue => cases valid
    case isFalse nonempty =>
      split at valid
      case h_1 => cases valid
      case h_2 fine =>
        refine ⟨List.length_pos_iff.mpr (mt List.isEmpty_iff.mpr nonempty), ?_⟩
        intro i f parent here link
        have := outward_of_badLink? fine here link
        exact ⟨by omega, this.2⟩
  · rintro ⟨nonempty, outward⟩
    have fine : badLink? c.frames.length 0 c.frames = none := by
      refine badLink?_eq_none fun i f parent here link => ?_
      have := outward i f parent here link
      exact ⟨by omega, this.2⟩
    have nonempty : c.frames.isEmpty = false :=
      List.isEmpty_eq_false_iff.mpr (List.length_pos_iff.mp nonempty)
    simp [FrameChain.validate, nonempty, fine]

/-- From every frame the walk ends, since each link leaves fewer frames ahead of it. -/
lemma Outward.exists_visits (h : c.Outward) {i : Nat} (inside : i < c.length) :
    ∃ is, c.Visits (some i) (i :: is) ∧ (i :: is).Pairwise (· < ·) := by
  induction ahead : c.length - i using Nat.strongRecOn generalizing i with
  | ind n ih =>
    have here : c.frames[i]? = some c.frames[i] := List.getElem?_eq_getElem inside
    cases link : c.frames[i].parent with
    | none =>
      have rest : c.Visits c.frames[i].parent [] := link ▸ .ended
      exact ⟨[], .step here rest, List.pairwise_singleton _ _⟩
    | some parent =>
      obtain ⟨further, within⟩ := h i _ parent here link
      obtain ⟨is, visits, outward⟩ := ih (c.length - parent) (by omega) within rfl
      have rest : c.Visits c.frames[i].parent (parent :: is) := link ▸ visits
      refine ⟨parent :: is, .step here rest, List.pairwise_cons.mpr ⟨?_, outward⟩⟩
      intro j hj
      rcases List.mem_cons.mp hj with rfl | hj
      · exact further
      · exact Nat.lt_trans further (List.rel_of_pairwise_cons outward hj)

lemma exists_walked_of_validate (valid : c.validate = .ok ()) : ∃ is, c.Walked is := by
  obtain ⟨nonempty, outward⟩ := validate_eq_ok_iff.mp valid
  obtain ⟨is, visits, increasing⟩ := outward.exists_visits nonempty
  exact ⟨0 :: is, visits.walked rfl increasing⟩

lemma Chained.visits (h : c.Chained) {i n : Nat} (ahead : i + (n + 1) = c.length) :
    c.Visits (some i) (List.range' i (n + 1)) := by
  induction n generalizing i with
  | zero =>
    have inside : i < c.frames.length := by rw [FrameChain.length] at ahead; omega
    have here : c.frames[i]? = some c.frames[i] := List.getElem?_eq_getElem inside
    have link : c.frames[i].parent = none := by rw [h i _ here, if_neg (by omega)]
    exact .step here (link ▸ .ended)
  | succ n ih =>
    have inside : i < c.frames.length := by rw [FrameChain.length] at ahead; omega
    have here : c.frames[i]? = some c.frames[i] := List.getElem?_eq_getElem inside
    have link : c.frames[i].parent = some (i + 1) := by rw [h i _ here, if_pos (by omega)]
    have rest : c.Visits c.frames[i].parent (List.range' (i + 1) (n + 1)) :=
      link ▸ ih (by omega)
    rw [List.range'_succ]
    exact .step here rest

/-- The walk of a snapshot stands at every place. -/
lemma Chained.walked (h : c.Chained) (nonempty : 0 < c.length) :
    c.Walked (List.range c.length) := by
  obtain ⟨n, hn⟩ : ∃ n, c.length = n + 1 := ⟨c.length - 1, by omega⟩
  have visits : c.Visits (some 0) (List.range' 0 (n + 1)) := h.visits (by omega)
  rw [← List.range_eq_range', ← hn] at visits
  have first : (List.range c.length).head? = some 0 := by rw [hn, List.head?_range]; rfl
  exact visits.walked first List.pairwise_lt_range

end FrameChain

/-- What a frame records of its activation. -/
def Frame.activation (f : Frame) : Activation := ⟨f.pc, f.scope, f.name⟩

namespace CallStack

/-- What may be done to a call stack. -/
inductive Operation where
  | push (a : Activation)
  | pop
  /-- The innermost activation goes on, to another node or scope. -/
  | modifyTop (f : Activation → Activation)

/-- The activations that are live after an operation, innermost first, if `as` were before. -/
def Operation.live (limit : Nat) (as : List Activation) : Operation → List Activation
  | push a => if as.length < limit then a :: as else as
  | pop => as.tail
  | modifyTop f => as.modifyHead f

/-- A call stack that is full stays as it is. -/
def perform (c : CallStack) : Operation → CallStack
  | .push a => (c.push? a).getD c
  | .pop => c.pop
  | .modifyTop f => c.modifyTop f

lemma perform_live (c : CallStack) (op : Operation) :
    (c.perform op).toList = op.live c.maxDepth c.toList ∧
      (c.perform op).maxDepth = c.maxDepth := by
  cases op with
  | push a =>
    simp only [perform, Operation.live, length_toList]
    by_cases room : c.depth < c.maxDepth
    · obtain ⟨c', pushed, live, limit⟩ := push?_of_lt a room
      rw [pushed, if_pos room]
      exact ⟨live, limit⟩
    · rw [push?_of_not_lt a room, if_neg room]
      exact ⟨rfl, rfl⟩
  | pop => exact ⟨toList_pop c, rfl⟩
  | modifyTop f => exact ⟨toList_modifyTop c f, rfl⟩

/-- Any number of operations, read on the list of activations. -/
lemma toList_foldl_perform (ops : List Operation) (c : CallStack) :
    (ops.foldl perform c).toList = ops.foldl (Operation.live c.maxDepth) c.toList := by
  induction ops generalizing c with
  | nil => rfl
  | cons op ops ih =>
    obtain ⟨live, limit⟩ := c.perform_live op
    rw [List.foldl_cons, List.foldl_cons, ih, live, limit]

lemma map_activation_capture (c : CallStack) : c.capture.frames.map Frame.activation = c.toList := by
  refine List.ext_getElem? fun i => ?_
  rw [List.getElem?_map, getElem?_capture, Option.map_map]
  exact congrFun Option.map_id _

end CallStack

/-- The walk of a valid chain ends: it begins with the first frame, goes strictly outward and so
comes to no frame twice. After any operations on a call stack the snapshot of the live activations,
if there is one, is valid, and its walk gives them all from the innermost outward. -/
theorem FrameChain.validated_chains_walked :
    (∀ c : FrameChain, c.validate = .ok () → ∃ is, c.Walked is) ∧
    ∀ (limit : Nat) (ops : List CallStack.Operation),
      let live := ops.foldl (CallStack.Operation.live limit) []
      let chain := (ops.foldl CallStack.perform (.empty limit)).capture
      live ≠ [] → chain.validate = .ok () ∧ chain.Walked (List.range live.length) ∧
        ∀ n, live.length ≤ n → (chain.walk n).map Frame.activation = live := by
  refine ⟨fun c valid => exists_walked_of_validate valid, ?_⟩
  intro limit ops live chain nonempty
  have lives : (ops.foldl CallStack.perform (.empty limit)).toList = live :=
    CallStack.toList_foldl_perform ops (.empty limit)
  have chained : chain.Chained := CallStack.capture_chained _
  have length : chain.length = live.length := by
    rw [CallStack.length_capture, ← CallStack.length_toList, lives]
  have pos : 0 < chain.length := length ▸ List.length_pos_iff.mpr nonempty
  refine ⟨chained.validate pos, length ▸ chained.walked pos, fun n enough => ?_⟩
  rw [chained.walk (length ▸ enough), CallStack.map_activation_capture, lives]

/-- A call from a call, and a link past it. -/
def skippingChain : FrameChain :=
  ⟨[⟨7, 2, some "inner", some 2⟩, ⟨5, 1, some "outer", some 2⟩, ⟨3, 0, none, none⟩]⟩

/-- A call that returns, and one that finds no room. -/
def callAndReturn : List CallStack.Operation :=
  [.push ⟨3, 0, none⟩, .push ⟨5, 1, some "outer"⟩, .pop, .modifyTop fun a => { a with pc := 4 },
    .push ⟨6, 1, some "other"⟩, .push ⟨7, 2, some "inner"⟩]

theorem FrameChain.validated_chains_walked_skipping :
    skippingChain.validate = .ok () ∧ (∃ is, skippingChain.Walked is) ∧
      (skippingChain.walk 3).map (·.pc) = [7, 3] ∧
      ∃ live, live ≠ [] ∧ callAndReturn.foldl (CallStack.Operation.live 2) [] = live ∧
        (callAndReturn.foldl CallStack.perform (.empty 2)).capture.Walked [0, 1] ∧
        live = [⟨6, 1, some "other"⟩, ⟨4, 0, none⟩] :=
  have valid : skippingChain.validate = .ok () := rfl
  have snapshot := validated_chains_walked.2 2 callAndReturn (by decide)
  ⟨valid, validated_chains_walked.1 skippingChain valid, rfl, _, by decide, rfl, snapshot.2.1, rfl⟩

end ScriptDebugger
