import ScriptDebugger.Proofs.Machine.Jumps
import ScriptDebugger.Proofs.Machine.Rebinding

/-!
# Statements that come to hand

A step executes a statement, or goes on with one that an entry has kept, and
what it brings are parts of that statement: one of them comes to hand and others
wait in entries above those that were there (`Machine.Brings`). An entry waits
in the scope that passing the entries before it leads back to
(`Machine.WaitIn`).
-/

namespace ScriptDebugger

/-- The statement that is about to be executed. -/
def Control.statement? : Control → Option NodeId
  | exec id => some id
  | _ => none

lemma Control.eq_exec {c : Control} {id : NodeId} (h : c.statement? = some id) : c = .exec id := by
  cases c <;> cases h
  rfl

/-- The statements that an entry goes on with. A declaration is gone on with declarator by
declarator. -/
def Pending.Stands (t : Tree) (S : NodeId → Prop) : Pending → Prop
  | .statements rest => ∀ id ∈ rest, S id
  | .ifTest consequent alternate => S consequent ∧ ∀ id, alternate = some id → S id
  | .whileTest _ body | .whileBody _ body => S body
  | .forInit p | .forTest p | .forBody p | .forUpdate p => S p.body
  | .declare kind _ name rest => ∃ v ds, S v ∧ t.kind v = .variableDeclaration kind ds ∧
    name ∈ t.declaredNames ds ∧ ∀ d ∈ rest, d ∈ ds
  | _ => True

lemma Pending.Stands.mono {t : Tree} {S S' : NodeId → Prop} (imp : ∀ id, S id → S' id) {p : Pending}
    (h : p.Stands t S) : p.Stands t S' := by
  cases p with
  | statements rest => exact fun id hid => imp id (h id hid)
  | ifTest consequent alternate => exact ⟨imp _ h.1, fun id hid => imp id (h.2 id hid)⟩
  | whileTest | whileBody | forInit | forTest | forBody | forUpdate => exact imp _ h
  | declare kind d name rest =>
    obtain ⟨v, ds, hv, declares⟩ := h
    exact ⟨v, ds, imp v hv, declares⟩
  | _ => trivial

lemma Pending.stands_of_isExpression {t : Tree} {S : NodeId → Prop} {p : Pending}
    (hp : p.isExpression = true) : p.unwinds = false ∧ p.Stands t S := by
  cases p <;> first | exact ⟨rfl, trivial⟩ | cases hp

namespace Machine

/-- The machine has come to statements of `S`, one at hand and others above `ps`. -/
structure Brings (t : Tree) (S : NodeId → Prop) (ps : List Pending) (m : Machine) : Prop where
  control : ∀ id, m.control = .exec id → S id
  pending : ∃ qs, m.pending = qs ++ ps ∧ ∀ q ∈ qs, q.unwinds = false ∧ q.Stands t S

namespace Brings

variable {e : Setting} {S : NodeId → Prop} {ps : List Pending} {m : Machine}

/-- Where no statement is at hand, only the entries count. -/
lemma waiting {t : Tree} (hc : m.control.statement? = none)
    (hp : ∃ qs, m.pending = qs ++ ps ∧ ∀ q ∈ qs, q.unwinds = false ∧ q.Stands t S) :
    m.Brings t S ps := by
  refine ⟨fun id same => ?_, hp⟩
  rw [same] at hc
  cases hc

lemma of_pending {t : Tree} (hc : m.control.statement? = none) (hp : m.pending = ps) :
    m.Brings t S ps := .waiting hc ⟨[], hp, List.forall_mem_nil _⟩

section

variable (h : m.Brings e.tree S ps)
include h

lemma goTo {control : Control} (hc : control.statement? = none) :
    (m.goTo control).Brings e.tree S ps := .waiting hc h.pending

lemma exec {id : NodeId} (hid : S id) : (m.goTo (.exec id)).Brings e.tree S ps := by
  refine ⟨fun id' same => ?_, h.pending⟩
  cases same
  exact hid

lemma finish : m.finish.Brings e.tree S ps := h.goTo rfl

lemma push {p : Pending} (unwinds : p.unwinds = false) (hp : p.Stands e.tree S) :
    (m.push p).Brings e.tree S ps := by
  obtain ⟨qs, hq, hqs⟩ := h.pending
  exact ⟨h.control, p :: qs, congrArg (p :: ·) hq,
    List.forall_mem_cons.mpr ⟨⟨unwinds, hp⟩, hqs⟩⟩

lemma evalThen (id : NodeId) {p : Pending} (unwinds : p.unwinds = false)
    (hp : p.Stands e.tree S) : (m.evalThen id p).Brings e.tree S ps :=
  (h.push unwinds hp).goTo rfl

lemma execThen {id : NodeId} (hid : S id) {p : Pending} (unwinds : p.unwinds = false)
    (hp : p.Stands e.tree S) : (m.execThen id p).Brings e.tree S ps :=
  (h.push unwinds hp).exec hid

lemma define (scope : ScopeId) (name : String) (v : Value) (isMutable : Bool) :
    (m.define scope name v isMutable).Brings e.tree S ps := ⟨h.control, h.pending⟩

end

/-- Expressions bring no statements. -/
lemma kept : KeptByExpressions e (Brings e.tree S ps) where
  setPc := fun h _ => ⟨h.control, h.pending⟩
  goTo := fun h control hc => h.goTo (by cases control <;> first | rfl | cases hc)
  throwValue := fun h _ => h.goTo rfl
  push := fun h _ hp =>
    have ⟨unwinds, stands⟩ := Pending.stands_of_isExpression hp
    h.push unwinds stands
  print := fun h _ => ⟨h.control, h.pending⟩
  withStore := fun h _ _ => ⟨h.control, h.pending⟩
  assign := fun h _ _ _ v => h.define _ _ v true
  functionValue := fun h _ _ _ _ _ => by
    simp only [Machine.functionValue]
    split <;> exact .waiting rfl h.pending

section

variable (h : m.Brings e.tree S ps)
include h

lemma runStatements {ids : List NodeId} (hids : ∀ id ∈ ids, S id) :
    (m.runStatements ids).Brings e.tree S ps := by
  cases ids with
  | nil => exact h.finish
  | cons id rest =>
    obtain ⟨first, others⟩ := List.forall_mem_cons.mp hids
    exact h.execThen first rfl others

/-- A declaration is gone on with as long as one of its declarators has a value. -/
lemma declare (hw : e.tree.WellFormed) {v : NodeId} {kind : VarKind} {ds : List NodeId} (hv : S v)
    (hk : e.tree.kind v = .variableDeclaration kind ds) {rest : List NodeId}
    (hrest : ∀ d ∈ rest, d ∈ ds) : (m.declare e kind rest).Brings e.tree S ps := by
  induction rest generalizing m with
  | nil => exact h.finish
  | cons d rest ih =>
    obtain ⟨first, others⟩ := List.forall_mem_cons.mp hrest
    simp only [Machine.declare]
    split
    case h_1 nameId init hd =>
      split
      · refine h.evalThen _ rfl ⟨v, ds, hv, hk, ?_, others⟩
        exact Tree.mem_declaredNames.mpr ⟨d, first, nameId, _, hd, hw.kind_nameId hd⟩
      · split
        · exact ih (h.define _ _ _ _) others
        · exact ih h others
    case h_2 => exact ih h others

lemma testFor {p : ForParts} (hp : S p.body) : (m.testFor p).Brings e.tree S ps := by
  simp only [Machine.testFor]
  split
  · exact h.evalThen _ rfl hp
  · exact h.execThen hp rfl hp

lemma updateFor {p : ForParts} (hp : S p.body) : (m.updateFor p).Brings e.tree S ps := by
  simp only [Machine.updateFor]
  split
  · exact h.evalThen _ rfl hp
  · exact h.testFor hp

lemma startFor (hw : e.tree.WellFormed) {init : Option NodeId} {p : ForParts}
    (hinit : ∀ id, init = some id → S id) (hp : S p.body) :
    (m.startFor e init p).Brings e.tree S ps := by
  simp only [Machine.startFor]
  split
  · exact h.testFor hp
  case h_2 id =>
    split
    case h_1 kind ds hk =>
      have pushed := ((kept (e := e)).setPc h id).push (p := .forInit p) rfl hp
      exact pushed.declare hw (hinit id rfl) hk fun _ hd => hd
    case h_2 => exact h.evalThen _ rfl hp

lemma resumeDone {p : Pending} (hp : p.Stands e.tree S) :
    (m.resumeDone p).Brings e.tree S ps := by
  cases p with
  | statements rest => exact h.runStatements hp
  | whileBody test body => exact h.evalThen test rfl hp
  | forInit p => exact h.testFor hp
  | forBody p => exact h.updateFor hp
  | leave | restoreScope => exact .waiting rfl h.pending
  | _ => exact h.finish

lemma resumeAbrupt (a : Abrupt) {p : Pending} (hp : p.Stands e.tree S) :
    (m.resumeAbrupt a p).Brings e.tree S ps := by
  have passes : (m.goTo (.abrupt a)).Brings e.tree S ps := h.goTo rfl
  cases p with
  | leave => cases a <;> exact .waiting rfl h.pending
  | restoreScope => exact .waiting rfl h.pending
  | whileBody test body =>
    cases a with
    | broken => exact h.finish
    | continued => exact h.evalThen test rfl hp
    | _ => exact passes
  | forBody p =>
    cases a with
    | broken => exact h.finish
    | continued => exact h.updateFor hp
    | _ => exact passes
  | _ => exact passes

end

/-- A value goes on with an entry other than those that change the call stack. -/
lemma resumeValue (hw : e.tree.WellFormed) (h : m.Brings e.tree S ps) (v : Value) {p : Pending}
    (hp : p.Stands e.tree S) (unwinds : p.unwinds = false)
    (hf : ∀ ref, constructed? v p ≠ some (.function ref)) :
    (Machine.resumeValue e m v p).Brings e.tree S ps := by
  cases p with
  | leave | restoreScope => cases unwinds
  | discard => exact h.finish
  | ifTest consequent alternate =>
    simp only [Machine.resumeValue]
    split
    · exact h.exec hp.1
    · split
      · exact h.exec (hp.2 _ rfl)
      · exact h.finish
  | whileTest test body =>
    simp only [Machine.resumeValue]
    split
    · exact h.execThen hp rfl hp
    · exact h.finish
  | forInit p => exact h.testFor hp
  | forTest p =>
    simp only [Machine.resumeValue]
    split
    · exact h.execThen hp rfl hp
    · exact h.finish
  | forUpdate p => exact h.testFor hp
  | returnValue => exact h.goTo rfl
  | throwValue node => exact (kept (e := e)).throwValue ((kept (e := e)).setPc h node) v
  | declare kind d name rest =>
    obtain ⟨declaration, ds, hd, hk, -, hrest⟩ := hp
    have bound : (m.bindDeclared kind d name v).Brings e.tree S ps := by
      rw [Machine.bindDeclared_eq]
      split
      · exact h.define _ _ _ _
      · split <;> exact ⟨h.control, h.pending⟩
    exact bound.declare hw hd hk hrest
  | statements | whileBody | forBody => exact h.goTo rfl
  | _ => exact (kept (e := e)).resumeValue h v rfl hf

end Brings

/-- The scope of the innermost activation. -/
def scopeOf (as : List Activation) : ScopeId := (as.head?.map (·.scope)).getD globalScope

lemma scope_eq (m : Machine) : m.scope = scopeOf m.calls.toList := by
  rw [Machine.scope, CallStack.top?_eq_head?, scopeOf]

lemma scopeOf_eq {as bs : List Activation} (h : SameButPc as bs) : scopeOf as = scopeOf bs := by
  cases bs with
  | nil => rw [SameButPc.nil_iff.mp h]
  | cons b bs =>
    obtain ⟨pc, rfl⟩ := SameButPc.cons_iff.mp h
    rfl

/-- Entries that each wait in the scope that passing those before leads back to. -/
inductive WaitIn (stands : ScopeId → Pending → Prop) : List Activation → List Pending → Prop
  | nil {as : List Activation} : WaitIn stands as []
  | cons {as : List Activation} {p : Pending} {ps : List Pending} (head : stands (scopeOf as) p)
    (tail : WaitIn stands (unwind [p] as) ps) : WaitIn stands as (p :: ps)

namespace WaitIn

variable {stands stands' : ScopeId → Pending → Prop} {as bs : List Activation}
  {ps qs : List Pending}

lemma mono (imp : ∀ scope p, stands scope p → stands' scope p) (h : WaitIn stands as ps) :
    WaitIn stands' as ps := by
  induction h with
  | nil => exact .nil
  | cons head tail ih => exact .cons (imp _ _ head) ih

lemma of_cons {p : Pending} (h : WaitIn stands as (p :: ps)) :
    stands (scopeOf as) p ∧ WaitIn stands (unwind [p] as) ps := by
  cases h with
  | cons head tail => exact ⟨head, tail⟩

lemma of_sameButPc (h : WaitIn stands bs ps) (same : SameButPc as bs) : WaitIn stands as ps := by
  induction h generalizing as with
  | nil => exact .nil
  | cons head tail ih => exact .cons (scopeOf_eq same ▸ head) (ih (same.unwind _))

lemma append (h : WaitIn stands as qs) (h' : WaitIn stands (unwind qs as) ps) :
    WaitIn stands as (qs ++ ps) := by
  induction h with
  | nil => exact h'
  | @cons as p rest head tail ih =>
    refine .cons head (ih ?_)
    rwa [← unwind_append]

lemma of_all (h : ∀ q ∈ qs, ∀ scope, stands scope q) : WaitIn stands as qs := by
  induction qs generalizing as with
  | nil => exact .nil
  | cons q rest ih =>
    obtain ⟨head, others⟩ := List.forall_mem_cons.mp h
    exact .cons (head _) (ih others)

lemma of_within (as : List Activation) (stands : ScopeId → Pending → Prop)
    (h : ∀ q ∈ qs, q.unwinds = false ∧ stands (scopeOf as) q) :
    WaitIn stands as qs ∧ unwind qs as = as := by
  induction qs with
  | nil => exact ⟨.nil, rfl⟩
  | cons q rest ih =>
    obtain ⟨⟨unwinds, head⟩, others⟩ := List.forall_mem_cons.mp h
    have same : unwind [q] as = as := unwind_cons unwinds []
    obtain ⟨tail, rest⟩ := ih others
    refine ⟨.cons head (by rwa [same]), ?_⟩
    rwa [unwind_cons unwinds]

end WaitIn

end Machine

end ScriptDebugger
