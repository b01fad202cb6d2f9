import ScriptDebugger.Proofs.Debugger.Listing
import ScriptDebugger.Proofs.Debugger.Stop
import ScriptDebugger.Proofs.Debugger.WrappedTree
import ScriptDebugger.Proofs.Machine.Globals

/-!
# Scripts and the global scope

No script changes what the global scope binds, and every scope that a run refers
to leads outward to it. A variable list stops short of it, so a built-in is
listed only under a name that the script declares.
-/

namespace ScriptDebugger

namespace Tree

variable {t t' : Tree}

lemma Declares.of_kind {name : String} (h : t.Declares name) (same : ∀ id, t'.kind id = t.kind id) :
    t'.Declares name := by
  obtain ⟨id, n, hn, kind⟩ := h
  exact ⟨id, n, by rwa [same], by rwa [same]⟩

lemma kind_bind (t : Tree) (row : Option Nat) (id : NodeId) :
    (t.bind row).1.kind id = t.kind id := by
  rcases t.bind_cases row with hb | ⟨tagged, hb⟩
  · rw [hb]
  · rw [hb]
    exact t.kind_tag tagged id

/-- The function around a text declares nothing itself. -/
lemma Wraps.declares {f : Nat → Nat} {n : NodeId} (h : t.Wraps f t' n) (hw : t.WellFormed)
    {name : String} (declares : t'.Declares name) : t.Declares name := by
  obtain ⟨id, d, hd, named⟩ := declares
  have none {k : NodeKind NodeId} (kind : t'.kind id = k) (hk : k.binders = []) : False := by
    rw [kind, hk] at hd
    cases hd
  by_cases before : id < n
  · have same := h.kind id before
    rw [same] at hd
    have inner : d < id := hw.child_lt id d (NodeKind.mem_children_of_binders hd)
    exact ⟨id, d, hd, by rw [← h.kind d (Nat.lt_trans inner before), named]⟩
  · obtain ⟨k, rfl⟩ := Nat.exists_eq_add_of_le (Nat.le_of_not_lt before)
    obtain ⟨ids, -, block⟩ := h.body
    rcases k with _ | _ | _ | _ | k
    · exact (none block rfl).elim
    · exact (none h.function rfl).elim
    · exact (none h.statement rfl).elim
    · exact (none h.program rfl).elim
    · have past : t'.size ≤ n + (k + 4) := by rw [h.size']; omega
      exact (none (kind_of_size_le past) rfl).elim

end Tree

/-- What a variable list shows of a scope is declared. -/
lemma Store.Confined.declares_of_displayScope {e : Setting} {s : Store} (h : s.Confined e)
    {id : ScopeId} {name : String}
    (listed : (s.displayScope .empty id globalScope).contains name = true) :
    e.tree.Declares name := by
  by_cases hid : id < s.scopes.size
  · obtain ⟨ids, path⟩ := h.toScoped.exists_path hid
    obtain ⟨i, hi, bound⟩ := (Store.contains_displayScope_iff h.made path name).mp listed
    exact h.declared i (Nat.pos_of_ne_zero (path.ne_root hi)) name bound
  · have none := s.scope_of_size_le (Nat.le_of_not_lt hid)
    have inner : id ≠ globalScope := fun same => hid (same ▸ h.nonempty)
    have nothing : s.displayScope .empty id globalScope = .empty := by
      simp [Store.displayScope, s.chain_of_none (congrArg Scope.parent none), none, inner,
        Scope.empty]
    rw [nothing] at listed
    cases listed

/-- Nor does a variable list that an interpreter shows list anything else. -/
lemma Interpreter.Holds.declares_of_displayScope {t : Tree} {i : Interpreter} (h : Holds 1 t i)
    (hw : t.WellFormed) {id : ScopeId} {name : String}
    (listed : (i.store.displayScope .empty id globalScope).contains name = true) :
    t.Declares name := by
  obtain ⟨tree, store⟩ := h.confined hw
  have declares := (store (i.setting neverHalt) tree).declares_of_displayScope listed
  rwa [← tree]

namespace Machine

variable {e : Setting} {m : Machine}

/-- The scopes that a state refers to: those of its activations, those that the end of a block or a
loop goes back to, those that functions are closed over and those of captured frames. -/
inductive Uses (m : Machine) : ScopeId → Prop
  | activation {a : Activation} (ha : a ∈ m.calls.toList) : Uses m a.scope
  | block {outer : ScopeId} (ho : .restoreScope outer ∈ m.pending) : Uses m outer
  | closure {c : Closure} (hc : c ∈ m.store.closures) : Uses m c.scope
  | frame {frames : FrameChain} (hf : m.control.frames? = some frames) {f : Frame}
    (hm : f ∈ frames.frames) : Uses m f.scope

lemma Confined.lt_of_uses (h : m.Confined e) {id : ScopeId} (uses : m.Uses id) :
    id < m.store.scopes.size := by
  cases uses with
  | activation ha => exact (h.activations _ ha).lt_size
  | block ho => exact (h.restores _ ho).lt_size
  | closure hc => exact (h.store.closures _ hc).1
  | frame hf hm => exact ((h.frames _ hf).2 _ hm).lt_size

end Machine

namespace Session

variable (d : Session)

/-- What is listed after an outcome has been shown comes from a scope. -/
lemma exists_scope_of_listed (cleared : d.variableList = .empty) (i : Interpreter)
    (outcome : Outcome) (base : OffsetBase) (output : String) {name : String}
    (listed : (finish output (d.showOutcome i outcome base)).1.variableList.contains name = true) :
    ∃ shown, (i.store.displayScope .empty shown globalScope).contains name = true := by
  have list : (finish output (d.showOutcome i outcome base)).1.variableList =
      (d.showOutcome i outcome base).1.variableList := by
    generalize d.showOutcome i outcome base = r
    obtain ⟨d', result⟩ := r
    cases result <;> rfl
  rw [list, showOutcome] at listed
  cases shown : outcome.scope? with
  | none =>
    simp [shown, showNoScope, cleared, VariableList.set, VariableList.add, VariableList.contains,
      VariableList.empty] at listed
  | some scope =>
    refine ⟨scope, ?_⟩
    simp only [shown, cleared] at listed
    cases outcome with
    | completed s => exact listed
    | halted reason frames =>
      simp only [showFrames] at listed
      cases valid : frames.validate <;> simpa only [valid] using listed
    | raised error frames =>
      simp only [showFrames] at listed
      cases valid : frames.validate <;> simpa only [valid] using listed

/-- A step lists only names that the text declares. -/
lemma declares_of_step {fuel : Nat} {d' : Session} {report : Report}
    (h : d.step fuel = some (d', .ok report)) :
    ∃ t, Tree.parse d.editor.text = .ok t ∧
      ∀ name, d'.variableList.contains name = true → t.Declares name := by
  cases parsed : Tree.parse d.editor.text with
  | error e =>
    have parsed : Tree.parse d.clear.editor.text = .error e := parsed
    simp [step, parsed] at h
  | ok t =>
    refine ⟨t, rfl, fun name listed => ?_⟩
    have bound : t.bind d.editor.breakpointRow? =
      ((t.bind d.editor.breakpointRow?).1, (t.bind d.editor.breakpointRow?).2) := rfl
    rw [step_of_parse d parsed bound, Option.map_eq_some_iff] at h
    obtain ⟨r, hr, hshown⟩ := h
    have list : (finish r.output (d.clear.showOutcome r.interpreter r.outcome .plain)).1 = d' :=
      congrArg Prod.fst hshown
    rw [← list] at listed
    obtain ⟨shown, listed⟩ := exists_scope_of_listed d.clear rfl r.interpreter r.outcome .plain
      r.output listed
    have used := (Interpreter.Holds.built d.editor.text d.suspends d.maxDepth).runProgram hr
    have hw := (Tree.wellFormed_of_parse parsed).bind d.editor.breakpointRow?
    exact (used.declares_of_displayScope hw listed).of_kind fun id => (t.kind_bind _ id).symm

/-- So does a run. -/
lemma declares_of_run (standard : d.config = .standard) {fuel : Nat} {d' : Session}
    {report : Report} (h : d.run fuel = some (d', .ok report)) :
    ∃ t, Tree.parse d.editor.text = .ok t ∧
      ∀ name, d'.variableList.contains name = true → t.Declares name := by
  rcases d.run_eq_some h with ⟨e, -, failed⟩ | ⟨t, parsed, ⟨e, failed⟩ | ⟨c, called, ran⟩⟩
  · cases failed
  · cases failed
  · refine ⟨t, parsed, fun name listed => ?_⟩
    obtain ⟨t', parsed', used⟩ := Interpreter.Holds.exists_of_callableOfText called
    obtain ⟨t'', n, wrapped, wraps, -⟩ := Tree.wraps_of_parse parsed
    rw [standard, wrapped] at parsed'
    obtain rfl := Except.ok.inj parsed'
    obtain ⟨r, hr, hshown⟩ := Option.map_eq_some_iff.mp ran
    rw [← show _ = d' from congrArg Prod.fst hshown] at listed
    refine wraps.declares (Tree.wellFormed_of_parse parsed) ?_
    cases hout : r.outcome.toOutcome? with
    | none =>
      rw [hout] at listed
      cases listed
    | some outcome =>
      rw [hout] at listed
      obtain ⟨shown, listed⟩ := exists_scope_of_listed _ rfl r.interpreter outcome _ r.output listed
      exact (used.run hr).declares_of_displayScope (Tree.wellFormed_of_parse wrapped) listed

end Session

namespace Interpreter

/-- In every state of every run of a text that parses, in whatever scopes but the global one, the
global scope is as it was built and all scopes that the state refers to lead outward to it; what a
variable list shows of a scope is declared by the text. So a session lists only names that its text
declares. -/
theorem global_scope_kept :
    (∀ text options t, Tree.parse text options = .ok t →
      ∀ (tags : List NodeId) (i : Interpreter), Holds 1 (tags.foldl Tree.tag t) i →
      ∀ e m, i.Starts 1 e m → ∀ n,
        (m.steps e n).store.scope globalScope = Store.initial.scope globalScope ∧
        (∀ id, (m.steps e n).Uses id → id < (m.steps e n).store.scopes.size) ∧
        (∀ id < (m.steps e n).store.scopes.size,
          ∃ ids, (m.steps e n).store.Path globalScope id ids) ∧
        ∀ id name, ((m.steps e n).store.displayScope .empty id globalScope).contains name = true →
          t.Declares name) ∧
    ∀ (d : Session) fuel d' report,
      (d.step fuel = some (d', .ok report) ∨
        d.config = .standard ∧ d.run fuel = some (d', .ok report)) →
      ∃ t, Tree.parse d.editor.text = .ok t ∧
        ∀ name, d'.variableList.contains name = true → t.Declares name := by
  refine ⟨fun text options t parsed tags i holds e m starts n => ?_,
    fun d fuel d' report shown => ?_⟩
  · have hw := (Tree.wellFormed_of_parse parsed).tags tags
    obtain ⟨tree, confined⟩ := holds.confined_steps hw starts n
    refine ⟨confined.store.globals, fun id uses => confined.lt_of_uses uses,
      fun id hid => confined.store.toScoped.exists_path hid, fun id name listed => ?_⟩
    have declares := confined.store.declares_of_displayScope listed
    rw [tree] at declares
    exact declares.of_kind fun id => (Tree.kind_tags tags id).symm
  · rcases shown with stepped | ⟨standard, ran⟩
    · exact d.declares_of_step stepped
    · exact d.declares_of_run standard ran

/-- A script that gives a variable the name of a global: the list shows the script's, and the
global is what it was. -/
theorem global_scope_kept_var_NaN :
    ∃ (t : Tree) (i : Interpreter) (m : Machine), Tree.parse "var NaN = null;" = .ok t ∧
      Holds 1 t i ∧ i.Starts 1 (i.setting neverHalt) m ∧
      (m.steps (i.setting neverHalt) 10).isFinal = true ∧
      (m.steps (i.setting neverHalt) 10).store.scope globalScope =
        Store.initial.scope globalScope ∧
      ∃ d' report, (Session.ofText "var NaN = null;").step 10 = some (d', .ok report) ∧
        d'.variableList.entries = [⟨some "NaN", "null"⟩] ∧ t.Declares "NaN" := by
  let d := Session.ofText "var NaN = null;"
  have parses : (Tree.parse d.editor.text).toOption.isSome = true := by decide +kernel
  have steps : ((d.step 10).bind fun r => r.2.toOption.map fun _ => r.1.variableList.entries) =
      some [⟨some "NaN", "null"⟩] := by decide +kernel
  have ended : ((Tree.parse d.editor.text).toOption.map fun t =>
      (((d.interpreter t).startProgram (d.programScope t) neverHalt).steps
        ((d.interpreter t).setting neverHalt) 10).isFinal) = some true := by decide +kernel
  cases parsed : Tree.parse d.editor.text with
  | error e => simp [parsed, Except.toOption] at parses
  | ok t =>
    rw [parsed] at ended
    have built : Holds 1 t (.ofTree t d.editor.text d.suspends d.maxDepth) := .built ..
    have starts := built.program neverHalt
    have kept := (global_scope_kept.1 d.editor.text {} t parsed [] _ built.scope _ _ starts 10).1
    obtain ⟨⟨d', result⟩, stepped, list⟩ := Option.bind_eq_some_iff.mp steps
    cases result with
    | error e => cases list
    | ok report =>
      have list : d'.variableList.entries = [⟨some "NaN", "null"⟩] := Option.some.inj list
      obtain ⟨t', parsed', declares⟩ := global_scope_kept.2 d 10 d' report (.inl stepped)
      obtain rfl := Except.ok.inj (parsed.symm.trans parsed')
      refine ⟨t, _, _, parsed, built.scope, starts, Option.some.inj ended, kept, d', report,
        stepped, list, declares "NaN" ?_⟩
      rw [VariableList.contains, list]
      rfl

end Interpreter

end ScriptDebugger
