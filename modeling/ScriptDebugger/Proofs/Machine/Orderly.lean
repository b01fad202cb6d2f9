import ScriptDebugger.Proofs.Machine.Balance
import ScriptDebugger.Proofs.Syntax.Jumps

/-!
# Jumps find what takes them

The pending work tells the context of the work at hand: between the entry that
ends an activation and the work at hand, the body of a loop takes `break` and
`continue`, and the activation of a function takes `return` (`around`). In an
orderly machine everything that waits may stand in its context, and an abrupt
end at hand is one that its context lets pass; every step keeps that.
-/

namespace ScriptDebugger

open Grammar (Context Legal)

/-- The abrupt ends that leave what stands in a context. -/
def Grammar.Context.lets (ctx : Context) : Abrupt → Bool
  | .returned _ => ctx.inFunction
  | .broken | .continued => ctx.inLoop
  | .thrown .. | .halted .. => true

namespace Machine

/-- The context of the work at hand. The outermost activation is in `outer`; all others are those
of functions. -/
def around (outer : Context) : List Pending → Context
  | [] => outer
  | .leave :: ps => ⟨outer.inFunction || !ps.isEmpty, false⟩
  | .whileBody .. :: ps | .forBody _ :: ps => (around outer ps).loop
  | _ :: ps => around outer ps

/-- An entry that may wait in a context. -/
def Waits (kinds : NodeId → NodeKind NodeId) (ctx : Context) : Pending → Prop
  | .statements rest => ∀ id ∈ rest, Legal kinds ctx id
  | .ifTest consequent alternate =>
    Legal kinds ctx consequent ∧ ∀ id, alternate = some id → Legal kinds ctx id
  | .whileTest _ body | .whileBody _ body => Legal kinds ctx.loop body
  | .forInit p | .forTest p | .forBody p | .forUpdate p => Legal kinds ctx.loop p.body
  | .returnValue => ctx.inFunction = true
  | _ => True

/-- Entries that each wait in the context that the others make. -/
def Waiting (kinds : NodeId → NodeKind NodeId) (outer : Context) : List Pending → Prop
  | [] => True
  | p :: ps => Waits kinds (around outer ps) p ∧ Waiting kinds outer ps

lemma Waiting.poised {kinds : NodeId → NodeKind NodeId} {outer : Context} {m : Machine}
    (h : Waiting kinds outer m.pending) : Waiting kinds outer m.poised.pending := by
  cases hr : m.resumed? with
  | none => rwa [poised_of_none hr]
  | some p =>
    rw [pending_of_resumed hr] at h
    exact h.2

/-- Work that may be at hand in a context. -/
def AtHand (kinds : NodeId → NodeKind NodeId) (ctx : Context) : Control → Prop
  | .exec id => Legal kinds ctx id
  | .abrupt a => ctx.lets a = true
  | _ => True

/-- The work at hand and the work that waits stand where they may. -/
structure Orderly (e : Setting) (outer : Context) (m : Machine) : Prop where
  control : AtHand e.tree.kind (around outer m.pending) m.control
  pending : Waiting e.tree.kind outer m.pending

namespace Orderly

variable {e : Setting} {outer : Context} {m : Machine}

lemma atHand_of_isRegular {kinds : NodeId → NodeKind NodeId} {ctx : Context} {control : Control}
    (hc : control.isRegular = true) : AtHand kinds ctx control := by
  cases control <;> trivial

lemma atHand_of_frames? {kinds : NodeId → NodeKind NodeId} {ctx : Context} {control : Control}
    (hc : control.frames? ≠ none) : AtHand kinds ctx control := by
  cases control with
  | abrupt a => cases a <;> first | rfl | exact absurd rfl hc
  | _ => exact absurd rfl hc

/-- Entries of expressions leave the context as it is and wait in any. -/
lemma waits_of_isExpression {kinds : NodeId → NodeKind NodeId} {p : Pending}
    (hp : p.isExpression = true) (ps : List Pending) :
    around outer (p :: ps) = around outer ps ∧ Waits kinds (around outer ps) p := by
  cases p <;> first | exact ⟨rfl, trivial⟩ | cases hp

section

variable (h : Orderly e outer m)
include h

lemma goTo {control : Control} (hc : AtHand e.tree.kind (around outer m.pending) control) :
    (m.goTo control).Orderly e outer := ⟨hc, h.pending⟩

lemma finish : m.finish.Orderly e outer := h.goTo trivial

lemma define (scope : ScopeId) (name : String) (v : Value) (isMutable : Bool) :
    (m.define scope name v isMutable).Orderly e outer := ⟨h.control, h.pending⟩

lemma evalThen (id : NodeId) {p : Pending} (hp : Waits e.tree.kind (around outer m.pending) p) :
    (m.evalThen id p).Orderly e outer := ⟨trivial, hp, h.pending⟩

lemma execThen {id : NodeId} {p : Pending} (hp : Waits e.tree.kind (around outer m.pending) p)
    (legal : Legal e.tree.kind (around outer (p :: m.pending)) id) :
    (m.execThen id p).Orderly e outer := ⟨legal, hp, h.pending⟩

lemma functionValue (id : NodeId) (name : Option NodeId) (params : List NodeId) (body : NodeId) :
    (m.functionValue e id name params body).Orderly e outer := by
  simp only [Machine.functionValue]
  split <;> exact ⟨trivial, h.pending⟩

end

variable (e outer) in
/-- Evaluating an expression keeps a machine orderly. -/
lemma kept : KeptByExpressions e (Orderly e outer) where
  setPc := fun h _ => ⟨h.control, h.pending⟩
  goTo := fun h _ hc => h.goTo (atHand_of_isRegular hc)
  throwValue := fun h _ => h.goTo rfl
  push := fun {m} h p hp => by
    obtain ⟨same, waits⟩ := waits_of_isExpression hp m.pending
    exact ⟨same ▸ h.control, waits, h.pending⟩
  print := fun h _ => ⟨h.control, h.pending⟩
  withStore := fun h _ _ => ⟨h.control, h.pending⟩
  assign := fun h _ _ _ v => h.define _ _ v true
  functionValue := fun h id name params body _ => h.functionValue id name params body

section

variable (h : Orderly e outer m)
include h

lemma throwFault (f : Fault) : (m.throwFault f).Orderly e outer := (kept e outer).throwFault h f

lemma runStatements {ids : List NodeId}
    (legal : ∀ id ∈ ids, Legal e.tree.kind (around outer m.pending) id) :
    (m.runStatements ids).Orderly e outer := by
  cases ids with
  | nil => exact h.finish
  | cons id rest =>
    obtain ⟨first, others⟩ := List.forall_mem_cons.mp legal
    exact h.execThen (p := .statements rest) others first

lemma bindDeclared (kind : VarKind) (declarator : NodeId) (name : String) (v : Value) :
    (m.bindDeclared kind declarator name v).Orderly e outer := by
  rw [Machine.bindDeclared_eq]
  split
  · exact ⟨h.control, h.pending⟩
  · split <;> exact ⟨h.control, h.pending⟩

lemma declare (kind : VarKind) (ds : List NodeId) : (m.declare e kind ds).Orderly e outer := by
  induction ds generalizing m with
  | nil => exact h.finish
  | cons d rest ih =>
    simp only [Machine.declare]
    split
    · split
      · exact h.evalThen _ trivial
      · split
        · exact ih (h.define _ _ _ _)
        · exact ih h
    · exact ih h

lemma runBlock {body : List NodeId}
    (legal : ∀ id ∈ body, Legal e.tree.kind (around outer m.pending) id) :
    (m.runBlock e body).Orderly e outer := by
  simp only [Machine.runBlock]
  split
  · have entered : (m.enterBlock e body).Orderly e outer := ⟨h.control, trivial, h.pending⟩
    exact entered.runStatements legal
  · exact h.runStatements legal

section

variable {p : ForParts} (legal : Legal e.tree.kind (around outer m.pending).loop p.body)
include legal

lemma testFor : (m.testFor p).Orderly e outer := by
  simp only [Machine.testFor]
  split
  · exact h.evalThen _ legal
  · exact h.execThen (p := .forBody p) legal legal

lemma updateFor : (m.updateFor p).Orderly e outer := by
  simp only [Machine.updateFor]
  split
  · exact h.evalThen _ legal
  · exact h.testFor legal

lemma startFor (init : Option NodeId) : (m.startFor e init p).Orderly e outer := by
  simp only [Machine.startFor]
  split
  · exact h.testFor legal
  case h_2 id =>
    split
    · have pushed : ((m.setPc id).push (.forInit p)).Orderly e outer :=
        ⟨h.control, legal, h.pending⟩
      exact pushed.declare _ _
    · exact h.evalThen _ legal

lemma runFor (init : Option NodeId) : (m.runFor e init p).Orderly e outer := by
  simp only [Machine.runFor]
  split
  · have entered : (m.enterBlock e []).Orderly e outer := ⟨h.control, trivial, h.pending⟩
    exact entered.startFor legal init
  · exact h.startFor legal init

end

lemma execNode {id : NodeId} (legal : Legal e.tree.kind (around outer m.pending) id) :
    (Machine.execNode e m id).Orderly e outer := by
  have h := (kept e outer).setPc h id
  simp only [Machine.execNode]
  split
  · exact h.goTo rfl
  · cases hk : e.tree.kind id with
    | variableDeclaration kind declarators => exact h.declare kind declarators
    | blockStatement body => exact h.runBlock (legal.statements (.inr hk))
    | ifStatement test consequent alternate => exact h.evalThen test (legal.branches hk)
    | forStatement init test update body =>
      exact h.runFor (p := ⟨test, update, body⟩) (legal.loopBody (by rw [hk]; rfl)) init
    | whileStatement test body => exact h.evalThen test (legal.loopBody (by rw [hk]; rfl))
    | returnStatement argument =>
      have allowed := legal.allowed
      rw [hk] at allowed
      cases argument with
      | none => exact h.goTo allowed
      | some argument => exact h.evalThen argument allowed
    | breakStatement | continueStatement =>
      have allowed := legal.allowed
      rw [hk] at allowed
      exact h.goTo allowed
    | debuggerStatement =>
      simp only
      split
      · exact h.goTo rfl
      · exact h.finish
    | functionDeclaration | emptyStatement => exact h.finish
    | _ => exact h.evalThen _ trivial

lemma resumeValue (v : Value) {p : Pending} (hp : p.unwinds = false)
    (waits : Waits e.tree.kind (around outer m.pending) p)
    (hf : ∀ ref, constructed? v p ≠ some (.function ref)) :
    (Machine.resumeValue e m v p).Orderly e outer := by
  cases p with
  | leave | restoreScope => cases hp
  | discard => exact h.finish
  | ifTest consequent alternate =>
    simp only [Machine.resumeValue]
    split
    · exact h.goTo waits.1
    · split
      · exact h.goTo (waits.2 _ rfl)
      · exact h.finish
  | whileTest test body =>
    simp only [Machine.resumeValue]
    split
    · exact h.execThen (p := .whileBody test body) waits waits
    · exact h.finish
  | forInit p => exact h.testFor waits
  | forTest p =>
    simp only [Machine.resumeValue]
    split
    · exact h.execThen (p := .forBody p) waits waits
    · exact h.finish
  | forUpdate p => exact h.testFor waits
  | returnValue => exact h.goTo waits
  | throwValue node => exact (kept e outer).throwValue ((kept e outer).setPc h node) v
  | declare kind declarator name rest => exact (h.bindDeclared _ _ _ _).declare _ _
  | statements | whileBody | forBody => exact h.goTo trivial
  | _ => exact (kept e outer).resumeValue h v rfl hf

lemma resumeDone {p : Pending} (hp : p.unwinds = false)
    (waits : Waits e.tree.kind (around outer m.pending) p) :
    (m.resumeDone p).Orderly e outer := by
  cases p with
  | leave | restoreScope => cases hp
  | statements rest => exact h.runStatements waits
  | whileBody test body => exact h.evalThen test waits
  | forInit p => exact h.testFor waits
  | forBody p => exact h.updateFor waits
  | _ => exact h.finish

/-- A loop takes the jumps that its body lets pass; any other abrupt end goes on to the next
entry. -/
lemma resumeAbrupt {a : Abrupt} {p : Pending} (hp : p.unwinds = false)
    (waits : Waits e.tree.kind (around outer m.pending) p)
    (passes : (around outer (p :: m.pending)).lets a = true) :
    (m.resumeAbrupt a p).Orderly e outer := by
  cases p with
  | leave | restoreScope => cases hp
  | whileBody test body =>
    cases a with
    | broken => exact h.finish
    | continued => exact h.evalThen test waits
    | _ => exact h.goTo passes
  | forBody p =>
    cases a with
    | broken => exact h.finish
    | continued => exact h.updateFor waits
    | _ => exact h.goTo passes
  | _ => exact h.goTo passes

lemma runBody {body : NodeId}
    (legal : ∀ id ∈ e.tree.blockBody body, Legal e.tree.kind (around outer m.pending) id) :
    (Machine.runBody e body m).Orderly e outer := by
  simp only [Machine.runBody]
  split
  · exact h.goTo rfl
  · exact h.runStatements legal

lemma callClosure {c : Closure} (args : List Value)
    (legal : ∀ id ∈ e.tree.blockBody c.body, Legal e.tree.kind ⟨true, false⟩ id)
    (inside : outer.inFunction = true ∨ m.pending ≠ []) :
    (m.callClosure e c args).Orderly e outer := by
  have called : around outer (.leave :: m.pending) = ⟨true, false⟩ := by
    simpa [around] using inside
  refine enterFunction_cases c args _ (fun calls _ => ?_) ?_
  · have entered : Orderly e outer ⟨enteredStore e m.store c args, calls, m.output, .done,
        .leave :: m.pending⟩ := ⟨trivial, trivial, h.pending⟩
    exact entered.runBody (by rwa [called])
  · have same (s : Store) : Orderly e outer { m with store := s } := ⟨h.control, h.pending⟩
    exact (same _).throwFault _

end

/-- Where an activation ends or a scope is left, values pass and so do the abrupt ends that are
let out. -/
lemma step_of_unwinds {p : Pending} (h : Orderly e outer m) (hr : m.resumed? = some p)
    (hp : p.unwinds = true) : (m.step e).Orderly e outer := by
  cases p with
  | leave =>
    obtain ⟨control, hstep, ended⟩ := step_of_leave (e := e) hr
    rw [hstep]
    rcases ended with ⟨v, rfl⟩ | ⟨rfl, stops⟩
    · exact ⟨trivial, h.pending.poised⟩
    · exact ⟨atHand_of_frames? stops, h.pending.poised⟩
  | restoreScope scope =>
    have atHand := h.control
    rw [pending_of_resumed hr] at atHand
    rw [step_of_restoreScope hr]
    exact ⟨atHand, h.pending.poised⟩
  | _ => cases hp

/-- Every step keeps a machine orderly, if the functions that it can call are. -/
theorem step (h : Orderly e outer m)
    (legal : ∀ ref, ∀ id ∈ e.tree.blockBody (m.store.closure ref).body,
      Legal e.tree.kind ⟨true, false⟩ id)
    (inside : outer.inFunction = true ∨ (m.isFinal = false → m.pending ≠ [])) :
    (m.step e).Orderly e outer := by
  cases hf : m.isFinal with
  | true => rwa [step_of_isFinal hf]
  | false =>
    by_cases hr : ∃ p, m.resumed? = some p ∧ p.unwinds = true
    · obtain ⟨p, hr, unwinds⟩ := hr
      exact h.step_of_unwinds hr unwinds
    have within (p : Pending) (hp : m.resumed? = some p) : p.unwinds = false :=
      Bool.eq_false_iff.mpr fun unwinds => hr ⟨p, hp, unwinds⟩
    have start : (m.poised.goTo .done).Orderly e outer := ⟨trivial, h.pending.poised⟩
    have waits (p : Pending) (hp : m.resumed? = some p) :
        Waits e.tree.kind (around outer m.poised.pending) p := by
      have waiting := h.pending
      rw [pending_of_resumed hp] at waiting
      exact waiting.1
    refine step_parts hf (fun id _ => (kept e outer).evalNode start id) (fun id hc => ?_)
      (fun f args name hf => (kept e outer).call start hf args name)
      (fun ref args name hc => start.callClosure args (legal ref) (inside.imp_right fun left => ?_))
      (fun ref args node => ?_) (fun v p hp hf => start.resumeValue v (within p hp) (waits p hp) hf)
      (fun p hp => start.resumeDone (within p hp) (waits p hp))
      fun a p ha hp => start.resumeAbrupt (within p hp) (waits p hp) ?_
    · have atHand := h.control
      rw [hc, ← poised_of_none (m := m) (by simp [resumed?, hc])] at atHand
      exact start.execNode atHand
    · have pending := left hf
      rwa [← poised_of_none (m := m) (by simp [resumed?, hc])] at pending
    · have pushed := (kept e outer).push ((kept e outer).setPc start node) (p := .construct) rfl
      exact pushed.callClosure args (legal ref) (.inr (List.cons_ne_nil _ _))
    · have atHand := h.control
      rwa [ha, pending_of_resumed hp] at atHand

end Orderly

end Machine

end ScriptDebugger
