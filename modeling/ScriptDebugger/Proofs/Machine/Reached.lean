import ScriptDebugger.Proofs.Machine.Halting
import ScriptDebugger.Proofs.Machine.Sound

/-!
# The states of a run

Every step keeps `Sound`, and a program starts in a sound state, so all states
of a run are sound. A list that runs along with the call stack says what each
activation executes: `Machine.running` starts with the program alone, grows with
every call that finds room and shrinks with every activation that ends.
-/

namespace ScriptDebugger

namespace Machine

variable {e : Setting} {K K' : Abrupt → Prop} {os : List NodeId} {m : Machine}

/-- A list kept along with the call stack, after a step: a call of `c` adds `f c`. -/
def keptAlong {α : Type} (f : Closure → α) (m : Machine) (xs : List α) : List α :=
  match m.called? with
  | some c => if m.calls.depth < m.calls.maxDepth then f c :: xs else xs
  | none => if m.resumed?.any Pending.isLeave then xs.tail else xs

lemma map_keptAlong {α β : Type} (g : α → β) (f : Closure → α) (m : Machine) (xs : List α) :
    (m.keptAlong f xs).map g = m.keptAlong (fun c => g (f c)) (xs.map g) := by
  cases hc : m.called? with
  | none =>
    simp only [keptAlong, hc]
    split
    · exact List.map_tail
    · rfl
  | some c =>
    simp only [keptAlong, hc]
    split
    · exact List.map_cons
    · rfl

/-- The functions of the activations after a step. -/
def ownersAfter (e : Setting) (m : Machine) (os : List NodeId) : List NodeId :=
  m.keptAlong (fun c => e.tree.owner c.body) os

lemma PendingAt.tail {p : Pending} {ps : List Pending} (hp : p.isLeave = false)
    (h : PendingAt e (p :: ps) os) :
    ∃ o os', os = o :: os' ∧ p.At e o ∧
      (∀ q, ps.head? = some q → q.isIterate = true → p.isIterate = true) ∧ PendingAt e ps os := by
  obtain ⟨o, os', rfl⟩ : ∃ o os', os = o :: os' := by
    cases p
    case leave => cases hp
    all_goals
      obtain ⟨⟨o, os', rfl, -⟩, -⟩ := h
      exact ⟨o, os', rfl⟩
  exact ⟨o, os', rfl, (pendingAt_cons hp).mp h⟩

lemma depth_setPc (m : Machine) (id : NodeId) : (m.setPc id).calls.depth = m.calls.depth := by
  rw [← CallStack.length_toList, toList_setPc, List.length_modifyHead, CallStack.length_toList]

lemma keptAlong_within {α : Type} (f : Closure → α) (xs : List α) (called : m.called? = none)
    (resumed : ∀ p, m.resumed? = some p → p.isLeave = false) : m.keptAlong f xs = xs := by
  simp only [keptAlong, called]
  cases hr : m.resumed? with
  | none => rfl
  | some p => simp [resumed p hr]

lemma free_of_top {p : Pending} {ps : List Pending} (hi : p.isIterate = false)
    (top : ∀ q, ps.head? = some q → q.isIterate = true → p.isIterate = true) :
    ∀ q, ps.head? = some q → q.isIterate = false := by
  intro q hq
  cases hqi : q.isIterate with
  | false => rfl
  | true => exact (top q hq hqi).symm.trans hi

/-- What a step resumes, if that is not the end of an activation. -/
lemma Sound.of_value {store : Store} {calls : CallStack} {output : String} {v : Value} {p : Pending}
    {ps : List Pending} (hw : e.tree.WellFormed) (hp : p.isLeave = false)
    (h : Sound e K os ⟨store, calls, output, .value v, p :: ps⟩) :
    Sound e K' (ownersAfter e ⟨store, calls, output, .value v, p :: ps⟩ os)
      (resumeValue e ⟨store, calls, output, .done, ps⟩ v p) := by
  obtain ⟨o, os, rfl, at_, top, hps⟩ := PendingAt.tail hp h.pending
  obtain ⟨standing, inside⟩ := h.control
  have stacked : Stacked e (o :: os) ⟨store, calls, output, .done, ps⟩ :=
    ⟨h.owners, h.callers, h.depth, hps⟩
  by_cases hi : p.isIterate = true
  · have hcall : AtCall e ⟨store, calls, output, .value v, p :: ps⟩ := by
      refine standing.resolve_left fun free => ?_
      rw [free p rfl] at hi
      cases hi
    have calling : Calling e o os ⟨store, calls, output, .done, ps⟩ := ⟨stacked, hcall⟩
    cases p with
    | forEach array callback index => exact calling.forEachFrom hw _ _ _
    | map array callback index done => exact calling.mapFrom hw _ _ _ _
    | reduce array callback index => exact calling.reduceFrom hw _ _ _ _
    | _ => cases hi
  have free : Free ⟨store, calls, output, .done, ps⟩ := free_of_top (by simpa using hi) top
  have working : Working e o os ⟨store, calls, output, .done, ps⟩ := ⟨⟨stacked, free⟩, inside⟩
  have plain : p.isPlain = true := by
    rw [Pending.isPlain, hp]
    simpa using hi
  by_cases hf : ∃ ref, constructed? v p = some (.function ref)
  · obtain ⟨ref, hf⟩ := hf
    obtain ⟨site, args, hsite, hstep⟩ := resumeValue_of_constructed (e := e) hf
      ⟨store, calls, output, .done, ps⟩
    have hs := at_.site hsite
    have calling := working.setPc_call hs
    have pushed :
        Calling e o os ((setPc ⟨store, calls, output, .done, ps⟩ site.node).push .construct) :=
      ⟨((working.setPc hs.site).toOpen.push (p := .construct) rfl trivial).toStacked,
        calling.atCall⟩
    have called := pushed.callClosure (K := K') hw (store.closure ref) args
    rw [hstep]
    have depth : ((setPc ⟨store, calls, output, .done, ps⟩ site.node).push .construct).calls.depth =
        calls.depth := depth_setPc _ _
    rw [depth] at called
    simp only [ownersAfter, keptAlong, called?, hf]
    exact called
  · have hf : ∀ ref, constructed? v p ≠ some (.function ref) := fun ref h => hf ⟨ref, h⟩
    have resumed := working.resumeValue (K := K') hw v plain at_ hf
    have called : (⟨store, calls, output, .value v, p :: ps⟩ : Machine).called? = none := by
      simp only [called?]
    rw [ownersAfter, keptAlong_within _ _ called fun q hq => by cases hq; exact hp]
    exact resumed

lemma Sound.of_leave {store : Store} {calls : CallStack} {output : String} {control : Control}
    {ps : List Pending} (hw : e.tree.WellFormed)
    (h : Sound e K os ⟨store, calls, output, control, .leave :: ps⟩)
    (hr : (⟨store, calls, output, control, .leave :: ps⟩ : Machine).resumed? = some .leave)
    (known : ∀ a, control = .abrupt a → K a ∨ CapturedAt e calls a → K' a) :
    Sound e K' os.tail (step e ⟨store, calls, output, control, .leave :: ps⟩) := by
  obtain ⟨o, os, rfl, hps⟩ := h.pending
  have stacked : Stacked e (o :: os) ⟨store, calls, output, control, .leave :: ps⟩ := h.toStacked
  have gives (v : Value) : Sound e K' os ⟨store, calls.pop, output, .value v, ps⟩ := by
    obtain ⟨stacked, standing, inside⟩ := stacked.leave hw hps (.value v)
    exact ⟨stacked, standing, inside⟩
  have passes (a : Abrupt) (ha : K' a) :
      Sound e K' os ⟨store, calls.pop, output, .abrupt a, ps⟩ := by
    obtain ⟨stacked, standing, inside⟩ := stacked.leave hw hps (.abrupt a)
    exact ⟨stacked, standing, .inl ha⟩
  cases control with
  | eval id => cases hr
  | exec id => cases hr
  | call f args name => cases hr
  | value v => exact gives v
  | done => exact gives .undefined
  | abrupt a =>
    have ha := known a rfl h.control.2
    cases a with
    | returned v => exact gives v
    | broken => exact gives .undefined
    | continued => exact gives .undefined
    | thrown v frames => exact passes _ ha
    | halted reason frames => exact passes _ ha

/-- Every step keeps a sound state sound; `K'` is what is known of an abrupt end after it. -/
theorem Sound.step (hw : e.tree.WellFormed) (h : Sound e K os m)
    (known : ∀ a, m.control = .abrupt a → K a ∨ CapturedAt e m.calls a → K' a) :
    Sound e K' (m.ownersAfter e os) (m.step e) := by
  obtain ⟨store, calls, output, control, pending⟩ := m
  cases control with
  | eval id =>
    obtain ⟨free, o, os, rfl, hid⟩ := h.control
    have opened : Open e o os ⟨store, calls, output, .done, pending⟩ :=
      ⟨h.toStacked.of_eq rfl rfl, free⟩
    exact opened.evalNode hw hid
  | exec id =>
    obtain ⟨free, o, os, rfl, hid⟩ := h.control
    have opened : Open e o os ⟨store, calls, output, .done, pending⟩ :=
      ⟨h.toStacked.of_eq rfl rfl, free⟩
    exact opened.execNode hw hid
  | call f args name =>
    obtain ⟨⟨a, as, htop, hcall⟩, -⟩ := h.control
    have owners := h.owners
    rw [htop] at owners
    cases os with
    | nil => cases owners
    | cons o os =>
      have calling : Calling e o os ⟨store, calls, output, .done, pending⟩ :=
        ⟨h.toStacked.of_eq rfl rfl, a, as, htop, hcall⟩
      cases f with
      | function ref => exact calling.callClosure hw _ args
      | builtin ref => exact calling.callBuiltin hw _ args
      | _ => exact calling.throwFault hw _
  | value v =>
    cases pending with
    | nil => exact ⟨h.toStacked, h.control⟩
    | cons p ps =>
      by_cases hp : p.isLeave = true
      · cases Pending.eq_leave hp
        exact h.of_leave hw rfl known
      · exact h.of_value hw (by simpa using hp)
  | done =>
    cases pending with
    | nil => exact ⟨h.toStacked, h.control⟩
    | cons p ps =>
      by_cases hp : p.isLeave = true
      · cases Pending.eq_leave hp
        exact h.of_leave hw rfl known
      · have hp : p.isLeave = false := by simpa using hp
        obtain ⟨o, os, rfl, at_, top, hps⟩ := PendingAt.tail hp h.pending
        have free : Free ⟨store, calls, output, .done, ps⟩ := free_of_top (h.control p rfl) top
        have opened : Open e o os ⟨store, calls, output, .done, ps⟩ :=
          ⟨⟨h.owners, h.callers, h.depth, hps⟩, free⟩
        rw [ownersAfter, keptAlong_within _ _ rfl fun q hq => by cases hq; exact hp]
        exact opened.resumeDone hp at_
  | abrupt a =>
    have ha : K' a := known a rfl h.control.2
    cases pending with
    | nil => exact ⟨h.toStacked, h.control.1, .inl ha⟩
    | cons p ps =>
      by_cases hp : p.isLeave = true
      · cases Pending.eq_leave hp
        exact h.of_leave hw rfl known
      · have hp : p.isLeave = false := by simpa using hp
        obtain ⟨o, os, rfl, at_, top, hps⟩ := PendingAt.tail hp h.pending
        have stacked : Stacked e (o :: os) ⟨store, calls, output, .done, ps⟩ :=
          ⟨h.owners, h.callers, h.depth, hps⟩
        have standing : Free ⟨store, calls, output, .done, ps⟩ ∨
            p.isIterate = true ∧ AtCall e ⟨store, calls, output, .done, ps⟩ := by
          by_cases hi : p.isIterate = true
          · refine .inr ⟨hi, h.control.1.resolve_left fun free => ?_⟩
            rw [free p rfl] at hi
            cases hi
          · exact .inl (free_of_top (by simpa using hi) top)
        rw [ownersAfter, keptAlong_within _ _ rfl fun q hq => by cases hq; exact hp]
        exact resumeAbrupt_sound stacked hp at_ standing ha

end Machine

namespace Interpreter

open Machine

variable (i : Interpreter) (scope : ScopeId) (halt : Node → Bool)

variable {i} in
lemma owner_root (hw : i.tree.WellFormed) : i.tree.owner i.root = i.root := by
  obtain ⟨n, hn, hroot⟩ := hw.root
  have root : i.root = n := by rw [Interpreter.root, hroot, Option.getD_some]
  rw [root, hw.owner_eq, hw.parent_of_size_le (Nat.le_of_eq hn)]

lemma stateAt_succ (n : Nat) :
    i.stateAt scope halt (n + 1) = (i.stateAt scope halt n).step (i.setting halt) :=
  steps_succ n _

variable {i} in
lemma sound_start (hw : i.tree.WellFormed) (room : 0 < i.maxDepth) (K : Abrupt → Prop) :
    Sound (i.setting halt) K [i.root] (i.stateAt scope halt 0) := by
  obtain ⟨calls, hcalls, hmax, hstart⟩ := i.startProgram_of_room scope halt room
  have opened : Open (i.setting halt) i.root []
      ⟨i.store.hoist (i.setting halt) scope i.body, calls, "", .done, [.leave]⟩ := by
    refine ⟨⟨?_, ?_, ?_, ⟨_, _, rfl, rfl⟩⟩, ?_⟩
    · rw [hcalls]
      exact .cons (owner_root hw) .nil
    · simp [hcalls]
    · rw [hmax, ← CallStack.length_toList, hcalls]
      exact room
    · intro q hq
      cases hq
      rfl
  have statements := Setting.executes_programBody (e := i.setting halt) hw i.root
  have own : (i.setting halt).tree.owner i.root = i.root := owner_root hw
  rw [own] at statements
  rw [stateAt, hstart]
  exact opened.runStatements statements

variable {i} in
/-- Without room for the program itself, there is nothing but the exception. -/
lemma sound_full (full : ¬ 0 < i.maxDepth) :
    Sound (i.setting halt) (fun _ => True) [] (i.stateAt scope halt 0) := by
  rw [stateAt, i.startProgram_of_full scope halt full]
  refine ⟨⟨.nil, ?_, Nat.zero_le _, rfl⟩, .inl ?_, .inl trivial⟩
  · intro a ha
    cases ha
  · intro q hq
    cases hq

variable {i} in
/-- Every state of a run is sound. -/
theorem sound_stateAt (hw : i.tree.WellFormed) (n : Nat) :
    ∃ os, Sound (i.setting halt) (fun _ => True) os (i.stateAt scope halt n) := by
  induction n with
  | zero =>
    by_cases room : 0 < i.maxDepth
    · exact ⟨_, sound_start scope halt hw room _⟩
    · exact ⟨_, sound_full scope halt room⟩
  | succ n ih =>
    obtain ⟨os, h⟩ := ih
    rw [stateAt_succ]
    exact ⟨_, h.step hw fun _ _ _ => trivial⟩

end Interpreter

end ScriptDebugger
