import ScriptDebugger.Proofs.Machine.Confined
import ScriptDebugger.Proofs.Machine.Runs

/-!
# Texts of functions

A function can be shown as a text, which is the part of the source that its node covers. In every
state of every run all function values are made of functions of the tree, by their declaration or
by evaluation, and so each has the text of the node that it was made of (`Holds.quotes_steps`).
-/

namespace ScriptDebugger

/-- The functions that are made of the nodes of the tree. -/
def Setting.Makes (e : Setting) (c : Closure) : Prop :=
  ∃ id name params body shown scope,
    (e.tree.kind id).asExpression = .functionExpression name params body ∧
      c = e.closure id shown params body scope

/-- Only the tree and the source count for that. -/
lemma Setting.Makes.congr {e e' : Setting} {c : Closure} (h : e.Makes c)
    (tree : e'.tree = e.tree) (source : e'.source = e.source) : e'.Makes c := by
  obtain ⟨id, name, params, body, shown, scope, kind, rfl⟩ := h
  refine ⟨id, name, params, body, shown, scope, tree ▸ kind, ?_⟩
  rw [closure, closure, textOf, textOf, tree, source]

namespace Store

/-- All functions in the store are made of nodes of the tree. -/
def Quotes (e : Setting) (s : Store) : Prop := ∀ c ∈ s.closures, e.Makes c

namespace Quotes

variable {e : Setting} {s s' : Store}

lemma of_same (h : s.Quotes e) (same : s'.closures = s.closures) : s'.Quotes e := by
  rw [Quotes, same]
  exact h

lemma newClosure (h : s.Quotes e) {c : Closure} (made : e.Makes c) :
    (s.newClosure c).1.Quotes e := by
  intro d hd
  rcases Array.mem_push.mp hd with hd | rfl
  · exact h d hd
  · exact made

lemma hoistFunctions (h : s.Quotes e) (scope : ScopeId) (body : List NodeId) :
    (s.hoistFunctions e scope body).Quotes e :=
  hoistFunctions_kept
    (fun h kind => h.newClosure ⟨_, some _, _, _, _, _, by rw [kind]; rfl, rfl⟩)
    (fun h _ _ => h.of_same rfl) h body

lemma hoist (h : s.Quotes e) (scope : ScopeId) (body : List NodeId) :
    (s.hoist e scope body).Quotes e :=
  (h.of_same (SameScopes.declareVars s scope _).closures).hoistFunctions scope body

lemma bindParams (h : s.Quotes e) (scope : ScopeId) (params : List String) (args : List Value) :
    (Machine.bindParams s scope params args).Quotes e :=
  h.of_same (SameScopes.bindParams s scope params args).closures

end Quotes

end Store

namespace Machine

/-- All functions that the machine has made are functions of the tree. -/
def Quotes (e : Setting) (m : Machine) : Prop := m.store.Quotes e

variable {e : Setting} {m : Machine}

lemma Quotes.functionValue (h : m.Quotes e) {id : NodeId} {name : Option NodeId}
    {params : List NodeId} {body : NodeId}
    (kind : e.tree.kind id = .functionExpression name params body) :
    (m.functionValue e id name params body).Quotes e := by
  have made (shown : Option String) (scope : ScopeId) :
      e.Makes (e.closure id shown params body scope) :=
    ⟨id, name, params, body, shown, scope, by rw [kind]; rfl, rfl⟩
  simp only [Machine.functionValue]
  split
  case h_1 => exact Store.Quotes.newClosure h (made none m.scope)
  case h_2 own _ =>
    have inner : (m.store.newScope (some m.scope)).1.Quotes e := h
    exact inner.newClosure (made (some own) m.store.scopes.size)

/-- Functions are made of function expressions and where the declarations of a block are bound. -/
lemma quotes_kept : KeptByStatements e (fun _ => True) (Quotes e) where
  setPc := fun h _ => h
  goTo := fun h _ _ => h
  throwValue := fun h _ => h
  push := fun h _ _ => h
  print := fun h _ => h
  withStore := fun h _ same => Store.Quotes.of_same h same.closures
  assign := fun h _ _ _ _ => h
  functionValue := fun h _ _ _ _ kind => Quotes.functionValue h kind
  declared := fun _ _ _ _ => trivial
  goToAny := fun h _ _ => h
  halt := fun h _ _ => h
  pushAny := fun h _ _ _ => h
  define := fun h _ _ _ _ => h
  enterBlock := fun {m} h body => by
    have inner : (m.store.newScope (some m.scope)).1.Quotes e := h
    exact inner.hoistFunctions m.store.scopes.size body

lemma Quotes.enterFunction (h : m.Quotes e) (c : Closure) (args : List Value)
    {next : Machine → Machine} (hnext : ∀ {m'}, Quotes e m' → (next m').Quotes e) :
    (m.enterFunction e c args next).Quotes e := by
  have inner : (m.store.newScope (some c.scope)).1.Quotes e := h
  have bound := inner.bindParams m.store.scopes.size c.params args
  exact enterFunction_cases c args next
    (fun _ _ => hnext (bound.hoist m.store.scopes.size (e.tree.blockBody c.body)))
    (quotes_kept.throwFault (m := { m with store := _ }) bound _)

lemma Quotes.callClosure (h : m.Quotes e) (c : Closure) (args : List Value) :
    (m.callClosure e c args).Quotes e :=
  h.enterFunction c args fun {m'} h' =>
    quotes_kept.runBody (m := m'.push .leave) h' c.body

/-- A step makes only functions of the tree. -/
theorem Quotes.step (h : m.Quotes e) : (m.step e).Quotes e := by
  cases hf : m.isFinal with
  | true => rwa [step_of_isFinal hf]
  | false =>
    by_cases hr : ∃ p, m.resumed? = some p ∧ p.unwinds = true
    · obtain ⟨p, hp, unwinds⟩ := hr
      cases p with
      | leave =>
        obtain ⟨control, hstep, -⟩ := step_of_leave (e := e) hp
        rw [hstep]
        exact h
      | restoreScope outer =>
        rw [step_of_restoreScope hp]
        exact h
      | _ => cases unwinds
    · exact quotes_kept.step hf h (fun _ _ => h) (fun _ _ _ _ _ => trivial)
        (fun _ _ h' => h'.callClosure _ _)
        fun p hp => Bool.eq_false_iff.mpr fun unwinds => hr ⟨p, hp, unwinds⟩

end Machine

namespace Interpreter

open Machine

variable {i : Interpreter} {low : ScopeId} {t : Tree} {e : Setting} {m : Machine}

lemma quotes_enter (h : m.Quotes e) {a : Activation} {next : Machine → Machine}
    (hnext : ∀ {m'}, Quotes e m' → (next m').Quotes e) : (m.enter a next).Quotes e := by
  simp only [enter]
  split
  · exact hnext h
  · exact quotes_kept.throwFault h _

lemma Starts.quotes (h : i.store.Quotes e) (starts : i.Starts low e m) (n : Nat) :
    (m.steps e n).Quotes e := by
  refine steps_preserve (fun _ hm => hm.step) ?_ n
  have idle : i.idle.Quotes e := h
  cases starts with
  | @program scope above inside halt =>
    refine quotes_enter idle fun {m'} h' => ?_
    have hoisted := Store.Quotes.hoist h' scope i.body
    exact quotes_kept.runStatements (m := Machine.push { m' with store := _ } .leave) hoisted i.body
  | expression above inside id => exact quotes_enter idle fun h' => h'
  | function f output =>
    refine Quotes.enterFunction (m := { i.idle with output }) h _ _ fun h' => ?_
    exact quotes_kept.runBody h' _

lemma Holds.quotes (holds : Holds low t i) :
    i.tree = t ∧ ∀ e : Setting, e.tree = t → e.source = i.source → i.store.Quotes e := by
  induction holds with
  | built source suspends maxDepth =>
    refine ⟨rfl, fun e _ _ c hc => ?_⟩
    have none : Store.initial.closures = #[] := rfl
    have mem : c ∈ Store.initial.closures := hc
    rw [none] at mem
    exact absurd mem (Array.not_mem_empty c)
  | scope _ ih => exact ih
  | ran _ starts n ih =>
    obtain ⟨tree, store⟩ := ih
    have same := starts.tree_eq.trans tree
    have source := starts.source_eq
    have after := starts.quotes (store _ same source) n
    exact ⟨tree, fun e' same' source' c hc =>
      (after c hc).congr (same'.trans same.symm) (source'.trans source.symm)⟩

/-- In every state of every run of a tree, each function has the text of the node it is made of. -/
theorem Holds.quotes_steps (holds : Holds low t i) (starts : i.Starts low e m) (n : Nat) :
    e.tree = t ∧ e.source = i.source ∧ (m.steps e n).store.Quotes e := by
  obtain ⟨tree, store⟩ := holds.quotes
  have same := starts.tree_eq.trans tree
  exact ⟨same, starts.source_eq, starts.quotes (store e same starts.source_eq) n⟩

end Interpreter

end ScriptDebugger
