import Mathlib.Data.Nat.Find
import ScriptDebugger.Proofs.Machine.Called
import ScriptDebugger.Proofs.Machine.Halting
import ScriptDebugger.Proofs.Syntax.Allocation
import ScriptDebugger.Proofs.Value.Members

/-!
# Array methods that call back

`forEach`, `map` and `reduce` call their callback for one element after another,
in the order of the array (`Iteration.Traverses`). The calls that a method makes
itself are those with one entry pending above what was pending before
(`ownCalls`); what its callback calls in turn has more (`InCall.above_or_ended`).
-/

namespace ScriptDebugger

/-- Where a method begins with its calls: at which element, and `reduce` also with which value. A
`reduce` that is given no value begins with the first element, if there is one. -/
def ArrayMethod.begins? (method : ArrayMethod) (args : List Value) (items : Array Value) :
    Option (Nat × Value) :=
  match method with
  | .reduce =>
    if 2 ≤ args.length then some (0, argument args 1) else items[0]?.map fun first => (1, first)
  | _ => some (0, .undefined)

/-- A method at work on an array: what it calls, and where it began. -/
structure Iteration where
  method : ArrayMethod
  array : Ref
  callback : Value
  first : Nat
  initial : Value

namespace Iteration

variable (i : Iteration) (items : Array Value) (values : List Value)

/-- What `reduce` passes on from the call before. -/
def passed : List Value :=
  match i.method with
  | .reduce => [values.getLastD i.initial]
  | _ => []

/-- The arguments of the call that comes after those that have given `values`. -/
def arguments : List Value :=
  let index := i.first + values.length
  i.passed values ++ [items.getD index .undefined, .number (Float.ofNat index), .array i.array]

/-- The first `n` calls, when they give `values`. -/
def expected (n : Nat) : List (Value × List Value) :=
  (List.range n).map fun j => (i.callback, i.arguments items (values.take j))

/-- What comes of the values in the end. -/
def result (s : Store) : Store × Value :=
  match i.method with
  | .map => s.newArray values.toArray
  | .reduce => (s, values.getLastD i.initial)
  | _ => (s, .undefined)

/-- The entry that waits for the next value. -/
def entry : Pending :=
  let index := i.first + values.length
  match i.method with
  | .map => .map i.array i.callback index values.reverse
  | .reduce => .reduce i.array i.callback index
  | _ => .forEach i.array i.callback index

/-- Goes on after the calls that have given `values`. -/
def round (m : Machine) : Machine :=
  m.callBack i.array i.callback (i.first + values.length) (i.passed values) (i.entry values)
    fun m => m.giveFrom (i.result values)

end Iteration

namespace Machine

/-- The call at hand, when a number of entries is pending. -/
def asked? (level : Nat) (m : Machine) : Option (Value × List Value) :=
  match m.control with
  | .call f args _ => if m.pending.length = level then some (f, args) else none
  | _ => none

/-- The value at hand, when a number of entries is pending. -/
def answered? (level : Nat) (m : Machine) : Option Value :=
  match m.control with
  | .value v => if m.pending.length = level then some v else none
  | _ => none

/-- The calls that `m` makes in `n` steps, without those that these make in turn. -/
def ownCalls (e : Setting) (m : Machine) (n : Nat) : List (Value × List Value) :=
  (List.range n).filterMap fun k => (m.steps e k).asked? (m.pending.length + 1)

/-- The values that these calls have given. -/
def ownValues (e : Setting) (m : Machine) (n : Nat) : List Value :=
  (List.range n).filterMap fun k => (m.steps e k).answered? (m.pending.length + 1)

/-- As long as `m` goes on, none of its calls leaves an array otherwise than it was. -/
def LeavesAlone (e : Setting) (m : Machine) (array : Ref) : Prop :=
  ∀ k d, (∀ j ≤ k, ¬ (m.steps e j).BackAt m.pending) →
    ((m.steps e k).asked? (m.pending.length + 1)).isSome = true → (m.steps e k).EndsAfter e d →
      (m.steps e (k + d)).store.array array = (m.steps e k).store.array array

variable {e : Setting} {m : Machine} {n : Nat}

lemma asked?_eq_some_iff {level : Nat} {f : Value} {args : List Value} :
    m.asked? level = some (f, args) ↔
      (∃ name, m.control = .call f args name) ∧ m.pending.length = level := by
  rw [asked?]
  cases m.control <;> simp [and_comm]

lemma answered?_eq_some_iff {level : Nat} {v : Value} :
    m.answered? level = some v ↔ m.control = .value v ∧ m.pending.length = level := by
  rw [answered?]
  cases m.control <;> simp [and_comm]

lemma asked?_of_ne {level : Nat} (h : m.pending.length ≠ level) : m.asked? level = none :=
  Option.eq_none_iff_forall_ne_some.mpr fun _ some => h (asked?_eq_some_iff.mp some).2

lemma answered?_of_ne {level : Nat} (h : m.pending.length ≠ level) : m.answered? level = none :=
  Option.eq_none_iff_forall_ne_some.mpr fun _ some => h (answered?_eq_some_iff.mp some).2

lemma asked?_of_answers {level : Nat} (h : m.control.Answers) : m.asked? level = none := by
  refine Option.eq_none_iff_forall_ne_some.mpr fun call some => ?_
  obtain ⟨⟨name, same⟩, -⟩ := asked?_eq_some_iff.mp some
  rw [same] at h
  cases h.isResult

lemma ownCalls_succ (m : Machine) (n : Nat) : m.ownCalls e (n + 1) =
    m.ownCalls e n ++ ((m.steps e n).asked? (m.pending.length + 1)).toList := by
  rw [ownCalls, ownCalls, List.range_succ, List.filterMap_append]
  rfl

lemma ownValues_succ (m : Machine) (n : Nat) : m.ownValues e (n + 1) =
    m.ownValues e n ++ ((m.steps e n).answered? (m.pending.length + 1)).toList := by
  rw [ownValues, ownValues, List.range_succ, List.filterMap_append]
  rfl

end Machine

namespace Iteration

open Machine

variable {e : Setting} {m s : Machine} {i : Iteration} {items : Array Value} {values : List Value}
  {ps : List Pending}

lemma isIterate_entry (i : Iteration) (values : List Value) :
    (i.entry values).isIterate = true := by
  rw [entry]
  cases i.method <;> rfl

lemma expected_succ (i : Iteration) (items : Array Value) (values : List Value) :
    i.expected items values (values.length + 1) =
      i.expected items values values.length ++ [(i.callback, i.arguments items values)] := by
  rw [expected, expected, List.range_succ, List.map_append, List.map_singleton, List.take_length]

/-- A value that comes last is not asked for by the calls up to it. -/
lemma expected_concat (i : Iteration) (items : Array Value) (values : List Value) (v : Value) :
    i.expected items (values ++ [v]) (values.length + 1) =
      i.expected items values (values.length + 1) := by
  refine List.map_congr_left fun j hj => ?_
  have inside : j ≤ values.length := Nat.le_of_lt_succ (List.mem_range.mp hj)
  rw [List.take_append_of_le_length inside]

/-- An entry that is given a value goes on with the next round. -/
lemma resumeValue_entry (m : Machine) (v : Value) :
    resumeValue e m v (i.entry values) = i.round (values ++ [v]) m := by
  obtain ⟨method, array, callback, first, initial⟩ := i
  have length : first + (values ++ [v]).length = first + values.length + 1 := by
    rw [List.length_append]
    rfl
  have last : (values ++ [v]).getLastD initial = v := by simp
  cases method with
  | map =>
    have back : (v :: values.reverse).reverse = values ++ [v] := by simp
    simp only [entry, round, passed, length, resumeValue, mapFrom, back, List.reverse_append]
    rfl
  | reduce =>
    have given : result ⟨.reduce, array, callback, first, initial⟩ (values ++ [v]) =
        fun s => (s, v) := by
      funext s
      simp only [result, last]
    simp only [entry, round, passed, length, last, resumeValue, reduceFrom, given]
    rfl
  | _ =>
    simp only [entry, round, passed, length, resumeValue, forEachFrom]
    rfl

/-- A method begins with its first round, unless there is nothing for it to begin with. -/
lemma iterate_eq (m : Machine) {method : ArrayMethod} (calls : method.hasCallback = true)
    (array : Ref) (args : List Value) : m.iterate method array args =
      match method.begins? args (m.store.array array) with
      | some (first, initial) =>
        Iteration.round ⟨method, array, argument args 0, first, initial⟩ [] m
      | none => m.throwFault .reduceOfEmpty := by
  cases method with
  | forEach => rfl
  | map => rfl
  | reduce =>
    simp only [Machine.iterate, ArrayMethod.begins?]
    split
    · rfl
    · cases (m.store.array array)[0]? <;> rfl
  | _ => cases calls

/-- `s` is the state in which the method calls for the element after those that have given
`values`. -/
structure Calls (i : Iteration) (items : Array Value) (ps : List Pending) (values : List Value)
    (s : Machine) : Prop where
  control : ∃ name, s.control = .call i.callback (i.arguments items values) name
  pending : s.pending = i.entry values :: ps
  array : s.store.array i.array = items
  inside : i.first + values.length < items.size

/-- A round calls for the next element, or gives the result if there is none. -/
lemma round_cases (values : List Value) (pending : m.pending = ps)
    (array : m.store.array i.array = items) :
    i.Calls items ps values (i.round values m) ∨
      items.size ≤ i.first + values.length ∧ i.round values m = m.giveFrom (i.result values) := by
  by_cases inside : i.first + values.length < items.size
  · have item : (m.store.array i.array)[i.first + values.length]? =
        some (items.getD (i.first + values.length) .undefined) := by
      rw [array, Array.getElem?_eq_getElem inside, Array.getD_eq_getD_getElem?,
        Array.getElem?_eq_getElem inside]
      rfl
    refine .inl ?_
    rw [round, callBack, item]
    exact ⟨⟨_, rfl⟩, congrArg (i.entry values :: ·) pending, array, inside⟩
  · have none : (m.store.array i.array)[i.first + values.length]? = none := by
      rw [array]
      exact Array.getElem?_eq_none (Nat.le_of_not_lt inside)
    refine .inr ⟨Nat.le_of_not_lt inside, ?_⟩
    rw [round, callBack, none]

/-- The method is calling, or what it has called goes on or has just ended. -/
inductive Phase (e : Setting) (m : Machine) (i : Iteration) (items : Array Value) (n : Nat)
    (values : List Value) : Nat → Prop
  | asks (calls : i.Calls items m.pending values (m.steps e n)) :
    Phase e m i items n values values.length
  | asked (k d : Nat) (since : n = k + (d + 1))
    (calls : i.Calls items m.pending values (m.steps e k))
    (first : ∀ j ≤ d, ¬ ((m.steps e k).steps e j).BackAt (m.steps e k).pending) :
    Phase e m i items n values (values.length + 1)

/-- The method is at work after `n` steps; its `c` calls have been those expected, and have given
`values`. -/
structure AtWork (e : Setting) (m : Machine) (i : Iteration) (items : Array Value) (n : Nat)
    (values : List Value) (c : Nat) : Prop where
  running : ∀ j ≤ n, ¬ (m.steps e j).BackAt m.pending
  given : m.ownValues e n = values
  calls : m.ownCalls e n = i.expected items values c
  phase : Phase e m i items n values c

/-- How the work of a method ends with step `n + 1`: with the result, after a call for each
element, or with what stopped the last of its calls. -/
inductive Ends (e : Setting) (m : Machine) (i : Iteration) (items : Array Value) (n : Nat) : Prop
  | result (back : (m.steps e (n + 1)).BackAt m.pending) (values : List Value)
    (given : m.ownValues e (n + 1) = values)
    (calls : m.ownCalls e (n + 1) = i.expected items values values.length)
    (all : i.first + values.length = items.size)
    (value : (m.steps e (n + 1)).control = .value (i.result values (m.steps e n).store).2)
    (store : (m.steps e (n + 1)).store = (i.result values (m.steps e n).store).1)
  | stopped (back : (m.steps e (n + 1)).BackAt m.pending) (values : List Value)
    (given : m.ownValues e (n + 1) = values)
    (calls : m.ownCalls e (n + 1) = i.expected items values (values.length + 1))
    (inside : i.first + values.length < items.size) (a : Abrupt)
    (level : (m.steps e n).pending.length = m.pending.length + 1)
    (before : (m.steps e n).control = .abrupt a) (after : (m.steps e (n + 1)).control = .abrupt a)

variable {n c : Nat}

lemma Calls.asked? (h : i.Calls items ps values s) :
    s.asked? (ps.length + 1) = some (i.callback, i.arguments items values) :=
  asked?_eq_some_iff.mpr ⟨h.control, by rw [h.pending, List.length_cons]⟩

/-- What is pending, while the method is at work, is more than before. -/
lemma Phase.inCall {k d : Nat} (since : n = k + (d + 1))
    (calls : i.Calls items m.pending values (m.steps e k))
    (first : ∀ j ≤ d, ¬ ((m.steps e k).steps e j).BackAt (m.steps e k).pending) :
    InCall (i.entry values :: m.pending) (m.steps e n) := by
  obtain ⟨name, control⟩ := calls.control
  have doing := inCall_steps control first
  rwa [← steps_add, ← since, calls.pending] at doing

lemma Phase.above (h : Phase e m i items n values c) :
    m.pending.length < (m.steps e n).pending.length := by
  cases h with
  | asks calls =>
    rw [calls.pending]
    exact Nat.lt_succ_self _
  | asked k d since calls first =>
    rcases (inCall since calls first).above_or_ended with above | ⟨same, -⟩
    · exact Nat.lt_trans (Nat.lt_succ_self _) above
    · rw [same]
      exact Nat.lt_succ_self _

lemma AtWork.next (h : AtWork e m i items n values c) {values' : List Value} {c' : Nat}
    (given : values ++ ((m.steps e n).answered? (m.pending.length + 1)).toList = values')
    (calls : i.expected items values c ++ ((m.steps e n).asked? (m.pending.length + 1)).toList =
      i.expected items values' c')
    (phase : Phase e m i items (n + 1) values' c') : AtWork e m i items (n + 1) values' c' := by
  refine ⟨fun j hj back => ?_, ?_, ?_, phase⟩
  · rcases Nat.lt_succ_iff_lt_or_eq.mp (Nat.lt_succ_of_le hj) with before | rfl
    · exact h.running j (Nat.le_of_lt_succ before) back
    · have above := phase.above
      rw [back.2] at above
      exact Nat.lt_irrefl _ above
  · rw [ownValues_succ, h.given, given]
  · rw [ownCalls_succ, h.calls, calls]

lemma AtWork.next_of_asks (h : AtWork e m i items n values values.length)
    (calls : i.Calls items m.pending values (m.steps e n)) :
    AtWork e m i items (n + 1) values (values.length + 1) := by
  obtain ⟨name, control⟩ := calls.control
  refine h.next ?_ ?_ (.asked n 0 rfl calls fun j hj back => ?_)
  · have none : (m.steps e n).answered? (m.pending.length + 1) = none := by
      rw [answered?, control]
    rw [none, Option.toList_none, List.append_nil]
  · rw [calls.asked?, expected_succ]
    rfl
  · obtain rfl := Nat.le_zero.mp hj
    exact not_backAt_of_call control back

/-- With the value of a call, the method goes on to the next element or gives the result. -/
lemma step_of_value {v : Value} (control : s.control = .value v)
    (pending : s.pending = i.entry values :: ps) (array : s.store.array i.array = items) :
    i.Calls items ps (values ++ [v]) (s.step e) ∨
      items.size ≤ i.first + values.length + 1 ∧
        s.step e = giveFrom ⟨s.store, s.calls, s.output, .done, ps⟩
          (i.result (values ++ [v])) := by
  have step : s.step e = i.round (values ++ [v]) ⟨s.store, s.calls, s.output, .done, ps⟩ := by
    obtain ⟨store, calls, output, _, _⟩ := s
    subst control pending
    exact resumeValue_entry _ v
  have length : i.first + (values ++ [v]).length = i.first + values.length + 1 := by
    rw [List.length_append]
    rfl
  rw [step, ← length]
  exact round_cases (values ++ [v]) rfl array

lemma step_of_abrupt {a : Abrupt} (control : s.control = .abrupt a)
    (pending : s.pending = i.entry values :: ps) :
    s.step e = ⟨s.store, s.calls, s.output, .abrupt a, ps⟩ := by
  obtain ⟨store, calls, output, _, _⟩ := s
  subst control pending
  exact step_of_abrupt_iterate (i.isIterate_entry values)

/-- With the value of a call, the method stays at work or ends. -/
lemma AtWork.next_of_value (h : AtWork e m i items n values (values.length + 1)) {v : Value}
    (control : (m.steps e n).control = .value v)
    (pending : (m.steps e n).pending = i.entry values :: m.pending)
    (array : (m.steps e n).store.array i.array = items)
    (inside : i.first + values.length < items.size) :
    AtWork e m i items (n + 1) (values ++ [v]) (values.length + 1) ∨ Ends e m i items n := by
  have level : (m.steps e n).pending.length = m.pending.length + 1 := by
    rw [pending, List.length_cons]
  have answered : (m.steps e n).answered? (m.pending.length + 1) = some v :=
    answered?_eq_some_iff.mpr ⟨control, level⟩
  have asked : (m.steps e n).asked? (m.pending.length + 1) = none :=
    asked?_of_answers (.inl ⟨v, control⟩)
  have length : (values ++ [v]).length = values.length + 1 := by
    rw [List.length_append]
    rfl
  have calls : i.expected items values (values.length + 1) ++
      ((m.steps e n).asked? (m.pending.length + 1)).toList =
        i.expected items (values ++ [v]) (values.length + 1) := by
    rw [asked, Option.toList_none, List.append_nil, expected_concat]
  rcases step_of_value (e := e) control pending array with next | ⟨beyond, last⟩
  · rw [← steps_succ] at next
    refine .inl (h.next ?_ calls (length ▸ .asks next))
    rw [answered]
    rfl
  · rw [← steps_succ] at last
    refine .inr (.result (last ▸ ⟨rfl, rfl⟩) (values ++ [v]) ?_ ?_ ?_ ?_ ?_)
    · rw [ownValues_succ, h.given, answered]
      rfl
    · rw [ownCalls_succ, h.calls, calls, length]
    · rw [length]
      omega
    · rw [last]
      rfl
    · rw [last]
      rfl

/-- What stops a call stops the method. -/
lemma AtWork.ends_of_abrupt (h : AtWork e m i items n values (values.length + 1)) {a : Abrupt}
    (control : (m.steps e n).control = .abrupt a)
    (pending : (m.steps e n).pending = i.entry values :: m.pending)
    (inside : i.first + values.length < items.size) : Ends e m i items n := by
  have level : (m.steps e n).pending.length = m.pending.length + 1 := by
    rw [pending, List.length_cons]
  have answered : (m.steps e n).answered? (m.pending.length + 1) = none := by
    rw [answered?, control]
  have asked : (m.steps e n).asked? (m.pending.length + 1) = none := by
    rw [asked?, control]
  have last := (steps_succ n m).trans (step_of_abrupt (e := e) control pending)
  refine .stopped (last ▸ ⟨rfl, rfl⟩) values ?_ ?_ inside a level control ?_
  · rw [ownValues_succ, h.given, answered, Option.toList_none, List.append_nil]
  · rw [ownCalls_succ, h.calls, asked, Option.toList_none, List.append_nil]
  · rw [last]

/-- A step of a method at work leaves it at work, or ends it. -/
lemma AtWork.step (h : AtWork e m i items n values c) (alone : m.LeavesAlone e i.array) :
    (∃ values' c', AtWork e m i items (n + 1) values' c') ∨ Ends e m i items n := by
  cases h.phase with
  | asks calls => exact .inl ⟨_, _, h.next_of_asks calls⟩
  | asked k d since calls first =>
    have doing := Phase.inCall since calls first
    rcases doing.above_or_ended with above | ⟨pending, answers⟩
    · have off : (m.steps e n).pending.length ≠ m.pending.length + 1 := Nat.ne_of_gt above
      refine .inl ⟨values, values.length + 1, h.next ?_ ?_ (.asked k (d + 1) ?_ calls ?_)⟩
      · rw [answered?_of_ne off, Option.toList_none, List.append_nil]
      · rw [asked?_of_ne off, Option.toList_none, List.append_nil]
      · omega
      · intro j hj
        rcases Nat.lt_succ_iff_lt_or_eq.mp (Nat.lt_succ_of_le hj) with before | rfl
        · exact first j (Nat.le_of_lt_succ before)
        · rw [← steps_add, ← since, calls.pending]
          intro back
          exact off (congrArg List.length back.2)
    · have ends : (m.steps e k).EndsAfter e (d + 1) := by
        refine ⟨?_, fun j hj => first j (Nat.le_of_lt_succ hj)⟩
        rw [← steps_add, ← since, calls.pending]
        exact ⟨answers.isResult, pending⟩
      have same := alone k (d + 1) (fun j hj => h.running j (by omega))
        (by rw [calls.asked?]; rfl) ends
      rw [← since, calls.array] at same
      rcases answers.cases with ⟨v, control⟩ | ⟨a, control⟩
      · rcases h.next_of_value control pending same calls.inside with next | ends
        · exact .inl ⟨_, _, next⟩
        · exact .inr ends
      · exact .inr (h.ends_of_abrupt control pending calls.inside)

/-- `m` calls a method, which begins its rounds with the next step. -/
structure Starts (e : Setting) (i : Iteration) (items : Array Value) (m : Machine) : Prop where
  call : ∃ f args name, m.control = .call f args name
  array : m.store.array i.array = items
  inside : i.first ≤ items.size
  step : m.step e = i.round [] ⟨m.store, m.calls, m.output, .done, m.pending⟩

lemma Starts.cases (h : Starts e i items m) :
    i.Calls items m.pending [] (m.steps e 1) ∨
      items.size ≤ i.first ∧ m.steps e 1 =
        giveFrom ⟨m.store, m.calls, m.output, .done, m.pending⟩ (i.result []) := by
  have step : m.steps e 1 = i.round [] _ := h.step
  rw [step]
  exact round_cases [] rfl h.array

lemma Starts.not_backAt (h : Starts e i items m) : ¬ m.BackAt m.pending := by
  obtain ⟨f, args, name, call⟩ := h.call
  exact not_backAt_of_call call

lemma Starts.first (h : Starts e i items m) :
    AtWork e m i items 1 [] 0 ∨ Ends e m i items 0 := by
  obtain ⟨f, args, name, call⟩ := h.call
  have given : m.ownValues e 1 = [] := by
    rw [ownValues_succ, answered?, steps, call]
    rfl
  have calls : m.ownCalls e 1 = [] := by
    rw [ownCalls_succ, asked?_of_ne]
    · rfl
    · exact Nat.ne_of_lt (Nat.lt_succ_self _)
  rcases h.cases with next | ⟨beyond, last⟩
  · refine .inl ⟨fun j hj => ?_, given, calls, .asks next⟩
    have which : j = 0 ∨ j = 1 := by omega
    rcases which with rfl | rfl
    · exact h.not_backAt
    · intro back
      have length := congrArg List.length (next.pending.symm.trans back.2)
      rw [List.length_cons] at length
      omega
  · refine .inr (.result (last ▸ ⟨rfl, rfl⟩) [] given calls ?_ ?_ ?_)
    · exact Nat.le_antisymm h.inside beyond
    · rw [last]
      rfl
    · rw [last]
      rfl

lemma Ends.back (h : Ends e m i items n) : (m.steps e (n + 1)).BackAt m.pending := by
  cases h with
  | result back => exact back
  | stopped back => exact back

/-- After each step, the method is at work or has ended. -/
lemma Starts.atWork_or_ends (h : Starts e i items m) (alone : m.LeavesAlone e i.array) (n : Nat) :
    (∃ values c, AtWork e m i items (n + 1) values c) ∨ ∃ k ≤ n, Ends e m i items k := by
  induction n with
  | zero =>
    rcases h.first with work | ends
    · exact .inl ⟨_, _, work⟩
    · exact .inr ⟨0, Nat.le_refl 0, ends⟩
  | succ n ih =>
    rcases ih with ⟨values, c, work⟩ | ⟨k, hk, ends⟩
    · rcases work.step alone with next | ends
      · exact .inl next
      · exact .inr ⟨n + 1, Nat.le_refl _, ends⟩
    · exact .inr ⟨k, Nat.le_succ_of_le hk, ends⟩

/-- A method goes through an array in order. Until it ends, its calls are those expected, each
given the value before the next is made. It ends with its result when each element had its call,
or at once with what stops a call. And it ends if all its calls do. -/
structure Traverses (e : Setting) (m : Machine) (i : Iteration) (items : Array Value) : Prop where
  calls : ∀ n, (∀ k < n, ¬ (m.steps e k).BackAt m.pending) →
    ∃ c, m.ownCalls e n = i.expected items (m.ownValues e n) c ∧
      (m.ownValues e n).length ≤ c ∧ c ≤ (m.ownValues e n).length + 1 ∧ i.first + c ≤ items.size
  ends : ∀ n, m.EndsAfter e n → ∃ k, n = k + 1 ∧ Ends e m i items k
  stops : ∀ n a, (∀ k ≤ n, ¬ (m.steps e k).BackAt m.pending) →
    (m.steps e n).pending.length = m.pending.length + 1 → (m.steps e n).control = .abrupt a →
      m.EndsAfter e (n + 1) ∧ (m.steps e (n + 1)).control = .abrupt a
  halts : (∀ k, (∀ j ≤ k, ¬ (m.steps e j).BackAt m.pending) →
      ((m.steps e k).asked? (m.pending.length + 1)).isSome = true →
        ∃ d, (m.steps e k).EndsAfter e d) →
    ∃ n, m.EndsAfter e n

lemma AtWork.calls_expected (h : AtWork e m i items n values c) :
    values.length ≤ c ∧ c ≤ values.length + 1 ∧ i.first + c ≤ items.size := by
  cases h.phase with
  | asks calls => exact ⟨Nat.le_refl _, Nat.le_succ _, Nat.le_of_lt calls.inside⟩
  | asked k d since calls first => exact ⟨Nat.le_succ _, Nat.le_refl _, calls.inside⟩

lemma Ends.calls_expected (h : Ends e m i items n) :
    ∃ c, m.ownCalls e (n + 1) = i.expected items (m.ownValues e (n + 1)) c ∧
      (m.ownValues e (n + 1)).length ≤ c ∧ c ≤ (m.ownValues e (n + 1)).length + 1 ∧
      i.first + c ≤ items.size := by
  cases h with
  | result back values given calls all =>
    subst given
    exact ⟨_, calls, Nat.le_refl _, Nat.le_succ _, Nat.le_of_eq all⟩
  | stopped back values given calls inside =>
    subst given
    exact ⟨_, calls, Nat.le_succ _, Nat.le_refl _, inside⟩

lemma Starts.calls (h : Starts e i items m) (alone : m.LeavesAlone e i.array) (n : Nat)
    (running : ∀ k < n, ¬ (m.steps e k).BackAt m.pending) :
    ∃ c, m.ownCalls e n = i.expected items (m.ownValues e n) c ∧
      (m.ownValues e n).length ≤ c ∧ c ≤ (m.ownValues e n).length + 1 ∧
      i.first + c ≤ items.size := by
  cases n with
  | zero => exact ⟨0, rfl, Nat.le_refl 0, Nat.zero_le 1, h.inside⟩
  | succ n =>
    rcases h.atWork_or_ends alone n with ⟨values, c, work⟩ | ⟨k, hk, ends⟩
    · have given := work.given
      subst given
      exact ⟨c, work.calls, work.calls_expected⟩
    · by_cases last : k = n
      · subst last
        exact ends.calls_expected
      · exact absurd ends.back (running (k + 1) (by omega))

lemma Starts.ends (h : Starts e i items m) (alone : m.LeavesAlone e i.array)
    (ended : m.EndsAfter e n) : ∃ k, n = k + 1 ∧ Ends e m i items k := by
  cases n with
  | zero => exact absurd ended.back h.not_backAt
  | succ n =>
    rcases h.atWork_or_ends alone n with ⟨values, c, work⟩ | ⟨k, hk, ends⟩
    · exact absurd ended.back (work.running (n + 1) (Nat.le_refl _))
    · by_cases last : k = n
      · subst last
        exact ⟨k, rfl, ends⟩
      · exact absurd ends.back (ended.first (k + 1) (by omega))

lemma Starts.stops (h : Starts e i items m) (alone : m.LeavesAlone e i.array) {a : Abrupt}
    (running : ∀ k ≤ n, ¬ (m.steps e k).BackAt m.pending)
    (level : (m.steps e n).pending.length = m.pending.length + 1)
    (control : (m.steps e n).control = .abrupt a) :
    m.EndsAfter e (n + 1) ∧ (m.steps e (n + 1)).control = .abrupt a := by
  cases n with
  | zero => exact absurd level (Nat.ne_of_lt (Nat.lt_succ_self _))
  | succ n =>
    rcases h.atWork_or_ends alone n with ⟨values, c, work⟩ | ⟨k, hk, ends⟩
    · cases work.phase with
      | asks calls =>
        obtain ⟨name, call⟩ := calls.control
        rw [control] at call
        cases call
      | asked k d since calls first =>
        rcases (Phase.inCall since calls first).above_or_ended with above | ⟨pending, -⟩
        · exact absurd level (Nat.ne_of_gt above)
        · have last := (steps_succ (n + 1) m).trans (step_of_abrupt (e := e) control pending)
          exact ⟨⟨last ▸ ⟨rfl, rfl⟩, fun k hk => running k (Nat.le_of_lt_succ hk)⟩, by rw [last]⟩
    · exact absurd ends.back (running (k + 1) (by omega))

/-- Once a call has ended, the method goes on to the next element or ends. -/
lemma Calls.after {k d : Nat} (calls : i.Calls items m.pending values (m.steps e k))
    (ends : (m.steps e k).EndsAfter e d) (same : (m.steps e (k + d)).store.array i.array = items) :
    (∃ v, i.Calls items m.pending (values ++ [v]) (m.steps e (k + d + 1))) ∨
      (m.steps e (k + d + 1)).BackAt m.pending := by
  obtain ⟨name, control⟩ := calls.control
  have back := ends.back
  rw [← steps_add, calls.pending] at back
  cases d with
  | zero => exact absurd back (not_backAt_of_call control)
  | succ d =>
    have doing := Phase.inCall rfl calls fun j hj => ends.first j (Nat.lt_succ_of_le hj)
    have step := steps_succ (e := e) (k + (d + 1)) m
    rcases doing.above_or_ended with above | ⟨-, answers⟩
    · rw [back.2] at above
      exact absurd above (Nat.lt_irrefl _)
    rcases answers.cases with ⟨v, control⟩ | ⟨a, control⟩
    · rw [step]
      rcases step_of_value (e := e) control back.2 same with next | ⟨-, last⟩
      · exact .inl ⟨v, next⟩
      · exact .inr (last ▸ ⟨rfl, rfl⟩)
    · rw [step, step_of_abrupt control back.2]
      exact .inr ⟨rfl, rfl⟩

lemma Starts.halts (h : Starts e i items m) (alone : m.LeavesAlone e i.array)
    (answered : ∀ k, (∀ j ≤ k, ¬ (m.steps e j).BackAt m.pending) →
      ((m.steps e k).asked? (m.pending.length + 1)).isSome = true →
        ∃ d, (m.steps e k).EndsAfter e d) : ∃ n, m.EndsAfter e n := by
  by_cases back : ∃ n, (m.steps e n).BackAt m.pending
  · classical
    exact ⟨Nat.find back, Nat.find_spec back, fun k hk => Nat.find_min back hk⟩
  · exfalso
    have running (n : Nat) : ¬ (m.steps e n).BackAt m.pending := fun ended => back ⟨n, ended⟩
    -- one more call after another, until there are more than elements
    have many (r : Nat) : ∃ k values, values.length = r ∧
        i.Calls items m.pending values (m.steps e k) := by
      induction r with
      | zero =>
        rcases h.cases with next | ⟨-, last⟩
        · exact ⟨1, [], rfl, next⟩
        · exact absurd (last ▸ ⟨rfl, rfl⟩) (running 1)
      | succ r ih =>
        obtain ⟨k, values, rfl, calls⟩ := ih
        have asked : ((m.steps e k).asked? (m.pending.length + 1)).isSome = true := by
          rw [calls.asked?]
          rfl
        obtain ⟨d, ends⟩ := answered k (fun j _ => running j) asked
        have same := alone k d (fun j _ => running j) asked ends
        rcases calls.after ends (same.trans calls.array) with ⟨v, next⟩ | ended
        · exact ⟨_, _, List.length_append, next⟩
        · exact absurd ended (running _)
    obtain ⟨k, values, length, calls⟩ := many items.size
    have inside := calls.inside
    omega

lemma Starts.traverses (h : Starts e i items m) (alone : m.LeavesAlone e i.array) :
    Traverses e m i items :=
  ⟨h.calls alone, fun _ ended => h.ends alone ended, fun _ _ => h.stops alone, h.halts alone⟩

end Iteration

/-- If each of the values is what `f` makes of the one before it and an element, the last of them
is the left fold. -/
lemma getLastD_eq_foldl {α β : Type} (f : α → β → α) (initial : α) (xs : List β) (ys : List α)
    (length : ys.length = xs.length)
    (each : ∀ j x, xs[j]? = some x → ys[j]? = some (f ((ys.take j).getLastD initial) x)) :
    ys.getLastD initial = xs.foldl f initial := by
  induction xs generalizing ys initial with
  | nil =>
    obtain rfl := List.eq_nil_of_length_eq_zero length
    rfl
  | cons x xs ih =>
    obtain ⟨y, ys, rfl⟩ := List.exists_cons_of_length_eq_add_one length
    have first : y = f initial x := by simpa using each 0 x rfl
    rw [List.getLastD_cons, List.foldl_cons, ← first]
    refine ih y ys (Nat.succ.inj length) fun j x' hx => ?_
    have later := each (j + 1) x' hx
    rwa [List.take_succ_cons, List.getLastD_cons] at later

/-- The same for the elements of an array, with their indices, from one of them on. -/
lemma getLastD_eq_foldl_elements {values : List Value} {items : Array Value} {first : Nat}
    {initial : Value} (f : Value → Value → Nat → Value)
    (all : first + values.length = items.size)
    (folds : ∀ j < values.length, values[j]? = some (f ((values.take j).getLastD initial)
      (items.getD (first + j) .undefined) (first + j))) :
    values.getLastD initial =
      (items.toList.zipIdx.drop first).foldl (fun acc x => f acc x.1 x.2) initial := by
  have size : items.toList.length = items.size := Array.length_toList
  refine getLastD_eq_foldl _ initial _ values ?_ fun j x found => ?_
  · rw [List.length_drop, List.length_zipIdx]
    omega
  · rw [List.getElem?_drop, List.getElem?_zipIdx, Nat.zero_add, Array.getElem?_toList] at found
    obtain ⟨item, there, rfl⟩ := Option.map_eq_some_iff.mp found
    obtain ⟨inside, -⟩ := Array.getElem?_eq_some_iff.mp there
    rw [folds j (by omega), Array.getD_eq_getD_getElem?, there]
    rfl

namespace Machine

variable {e : Setting} {m : Machine}

lemma step_of_method {method : ArrayMethod} (calls : method.hasCallback = true) {r array : Ref}
    {args : List Value} {name : CalleeName} (called : m.control = .call (.builtin r) args name)
    (bound : m.store.builtin r = ⟨.array method, some (.array array)⟩) :
    m.step e = iterate ⟨m.store, m.calls, m.output, .done, m.pending⟩ method array args := by
  obtain ⟨store, stack, output, control, pending⟩ := m
  obtain rfl : control = .call (.builtin r) args name := called
  have bound : store.builtin r = ⟨.array method, some (.array array)⟩ := bound
  simp only [step, call, bound, callBuiltin, calls, if_true]

lemma begins?_eq_none_iff {method : ArrayMethod} {args : List Value} {items : Array Value} :
    method.begins? args items = none ↔
      method = .reduce ∧ args.length < 2 ∧ items.size = 0 := by
  cases method with
  | reduce =>
    simp only [ArrayMethod.begins?]
    split
    case isTrue two => simp [Nat.not_lt_of_le two]
    case isFalse fewer => simp [Nat.lt_of_not_le fewer]
  | _ => simp [ArrayMethod.begins?]

lemma first_le_size {method : ArrayMethod} {args : List Value} {items : Array Value} {first : Nat}
    {initial : Value} (begins : method.begins? args items = some (first, initial)) :
    first ≤ items.size := by
  cases method with
  | reduce =>
    simp only [ArrayMethod.begins?] at begins
    split at begins
    · cases begins
      exact Nat.zero_le _
    · obtain ⟨item, found, same⟩ := Option.map_eq_some_iff.mp begins
      cases same
      exact (Array.getElem?_eq_some_iff.mp found).1
  | _ =>
    cases begins
    exact Nat.zero_le _

/-- An array method calls its callback for one element after another, in order, each time with the
element, its index and the array, and `reduce` with the value before in front of them; it makes no
other calls. `map` gives an array of the values, `reduce` the last of them, which is a left fold. A
`reduce` that has nothing to begin with throws and calls nothing. What stops a call stops the
method. -/
theorem callbacks_traverse (e : Setting) (m : Machine) (method : ArrayMethod) (r array : Ref)
    (args : List Value) (name : CalleeName) (calls : method.hasCallback = true)
    (called : m.control = .call (.builtin r) args name)
    (bound : m.store.builtin r = ⟨.array method, some (.array array)⟩)
    (alone : m.LeavesAlone e array) :
    let items := m.store.array array
    (method.begins? args items = none ↔ method = .reduce ∧ args.length < 2 ∧ items.size = 0) ∧
    (method.begins? args items = none → m.EndsAfter e 1 ∧ ∃ error frames,
      (m.steps e 1).control = .abrupt (.thrown (.error error) frames) ∧
      (m.steps e 1).store.error error =
        ⟨"TypeError", "Reduce of empty array with no initial value"⟩) ∧
    ∀ first initial, method.begins? args items = some (first, initial) →
      Iteration.Traverses e m ⟨method, array, argument args 0, first, initial⟩ items ∧
      ∀ (f : Value → Value → Nat → Value) n v, method = .reduce →
        m.EndsAfter e n → (m.steps e n).control = .value v →
        (∀ j < (m.ownValues e n).length, (m.ownValues e n)[j]? = some (f
          (((m.ownValues e n).take j).getLastD initial) (items.getD (first + j) .undefined)
          (first + j))) →
        v = (items.toList.zipIdx.drop first).foldl (fun acc x => f acc x.1 x.2) initial := by
  intro items
  have step := step_of_method (e := e) calls called bound
  rw [Iteration.iterate_eq _ calls] at step
  refine ⟨begins?_eq_none_iff, fun none => ?_, fun first initial begins => ?_⟩
  · simp only [items] at none
    simp only [none] at step
    obtain ⟨s, error, thrown, made, -⟩ := throwFault_eq
      ⟨m.store, m.calls, m.output, .done, m.pending⟩ .reduceOfEmpty
    have first : m.steps e 1 = _ := step.trans thrown
    refine ⟨⟨first ▸ ⟨rfl, rfl⟩, fun k hk back => ?_⟩, error, m.calls.capture, ?_, ?_⟩
    · obtain rfl := Nat.lt_one_iff.mp hk
      exact not_backAt_of_call called back
    · rw [first]
      rfl
    · rw [first]
      exact made
  · simp only [items] at begins
    simp only [begins] at step
    have starts : Iteration.Starts e ⟨method, array, argument args 0, first, initial⟩ items m :=
      ⟨⟨_, _, _, called⟩, rfl, first_le_size begins, step⟩
    have traverses := starts.traverses alone
    refine ⟨traverses, fun f n v reduces ended control folds => ?_⟩
    subst reduces
    obtain ⟨k, rfl, last⟩ := traverses.ends n ended
    cases last with
    | stopped back values given calls inside a level before after =>
      rw [control] at after
      cases after
    | result back values given calls all value store =>
      have last : v = values.getLastD initial := Control.value.inj (control.symm.trans value)
      have all : first + values.length = items.size := all
      rw [given] at folds
      rw [last]
      exact getLastD_eq_foldl_elements f all folds

/-- A callback leaves an array alone if nothing changes it until the run has ended. -/
lemma leavesAlone_of_kept {array : Ref} {items : Array Value} {n : Nat}
    (final : (m.steps e n).isFinal = true)
    (kept : ∀ j ≤ n, (m.steps e j).store.array array = items) : m.LeavesAlone e array := by
  have always (k : Nat) : (m.steps e k).store.array array = items := by
    rcases Nat.le_total k n with le | le
    · exact kept k le
    · obtain ⟨l, rfl⟩ := Nat.exists_eq_add_of_le le
      rw [steps_add, steps_of_isFinal final]
      exact kept n (Nat.le_refl n)
  exact fun k d _ _ _ => (always (k + d)).trans (always k).symm

/-- A script maps a function of its own over two texts: the function is called for each text, and
what it returns makes an array. -/
theorem map_traverses_two :
    ∃ (t : Tree) (i : Interpreter) (scope : ScopeId),
      Tree.parse "[\"a\", \"b\"].map(function (x) \x7b return x + x; \x7d);" = .ok t ∧
      i.tree = t ∧
      let e := i.setting Interpreter.neverHalt
      let m := (i.startProgram scope Interpreter.neverHalt).steps e 12
      m.control = .call (.builtin 9) [.function 0] (.source 4) ∧
      m.store.array 0 = #[.string "a", .string "b"] ∧ m.EndsAfter e 23 ∧
      m.ownCalls e 23 =
        [(.function 0, [.string "a", .number (Float.ofNat 0), .array 0]),
          (.function 0, [.string "b", .number (Float.ofNat 1), .array 0])] ∧
      (m.steps e 23).control = .value (.array 1) ∧
      (m.steps e 23).store.array 1 = #[.string "aa", .string "bb"] := by
  let text := "[\"a\", \"b\"].map(function (x) \x7b return x + x; \x7d);"
  let t := (Tree.parse text).toOption.getD default
  let i := (Interpreter.ofTree t text false 10).newProgramScope
  let e := i.1.setting Interpreter.neverHalt
  let m := (i.1.startProgram i.2 Interpreter.neverHalt).steps e 12
  have parsed : Tree.parse text = .ok t := Tree.parse_of_isSome (by decide +kernel)
  have called : m.control = .call (.builtin 9) [.function 0] (.source 4) := by decide +kernel
  have bound : m.store.builtin 9 = ⟨.array .map, some (.array 0)⟩ := by decide +kernel
  have kept : ∀ j < 27, (m.steps e j).store.array 0 = #[.string "a", .string "b"] := by
    decide +kernel
  have final : (m.steps e 26).isFinal = true := by decide +kernel
  have ends : m.EndsAfter e 23 :=
    .of_length (by decide +kernel) (by decide +kernel) (by decide +kernel)
  have returned : m.ownValues e 23 = [.string "aa", .string "bb"] := by decide +kernel
  have mapped : (m.steps e 23).control = .value (.array 1) := by decide +kernel
  have size : (m.steps e 22).store.arrays.size = 1 := by decide +kernel
  have alone : m.LeavesAlone e 0 :=
    leavesAlone_of_kept final fun j le => kept j (Nat.lt_succ_of_le le)
  obtain ⟨-, -, traverses⟩ :=
    callbacks_traverse e m .map 9 0 [.function 0] (.source 4) rfl called bound alone
  obtain ⟨traverses, -⟩ := traverses 0 .undefined rfl
  obtain ⟨k, last, how⟩ := traverses.ends 23 ends
  obtain rfl : k = 22 := by omega
  cases how with
  | stopped back values given calls inside a level before after => cases mapped.symm.trans after
  | result back values given calls all value store =>
    obtain rfl : values = [.string "aa", .string "bb"] := given.symm.trans returned
    have items : m.store.array 0 = #[.string "a", .string "b"] := kept 0 (by decide)
    rw [items] at calls
    refine ⟨t, i.1, i.2, parsed, rfl, called, items, ends, calls, mapped, ?_⟩
    have made := (m.steps e 22).store.array_newArray #[.string "aa", .string "bb"]
    rw [size] at made
    exact (congrArg (Store.array · 1) store).trans made

end Machine

end ScriptDebugger
