import ScriptDebugger.Proofs.Machine.BoundAhead

/-!
# What a block leaves behind

A block that lists a `let`, a `const` or a function has a scope of its own, and
what is declared there is not seen outside. Any other block is executed in the
scope at hand, and so is what stands in it, as long as that opens no scope
(`Setting.Exposes`). There are two ways for a name to stay behind in that scope.
A `let` or `const` that is a branch or the body of a loop is in no list, so no
scope is opened for it (`Setting.Strays`). And a `var` whose name leads to a
constant binds the name anew, since it cannot assign to it
(`Machine.BindsOverConstant`). No other scope that there was gets any names.
-/

namespace ScriptDebugger

variable {e : Setting}

namespace Setting

/-- The statements that are executed in the scope that `b` is executed in. -/
inductive Exposes (e : Setting) (b : NodeId) : NodeId → Prop
  | self : Exposes e b b
  | part {p c : NodeId} (h : Exposes e b p) (shared : e.ownScope? p = none)
    (hc : c ∈ (e.tree.kind p).substatements) : Exposes e b c

/-- A `let` or `const` of the name is a branch, or the body of a loop, among what `b` exposes. -/
def Strays (e : Setting) (b : NodeId) (name : String) : Prop :=
  ∃ p v kind ds, e.Exposes b p ∧ v ∈ (e.tree.kind p).arms ∧
    e.tree.kind v = .variableDeclaration kind ds ∧ kind.isLexical = true ∧
    name ∈ e.tree.declaredNames ds

/-- Of the scopes that there were, statements are executed in `outer` only, and these are exposed
by `b`. -/
def RunsIn (e : Setting) (b : NodeId) (old : Nat) (outer : ScopeId) (_ : Store) (scope : ScopeId)
    (id : NodeId) : Prop :=
  scope < old → scope = outer ∧ e.Exposes b id

lemma placing_runsIn (b : NodeId) (old : Nat) (outer : ScopeId) :
    e.Placing old (e.RunsIn b old outer) where
  mono := fun h _ => h
  inner := fun h shared hc before => (h before).imp_right fun exposed => exposed.part shared hc
  own := fun _ new _ _ _ before => absurd before (Nat.not_lt_of_le new)
  function := fun new _ _ _ _ before => absurd before (Nat.not_lt_of_le new)

/-- A `let` or `const` that a block exposes is in no list and opens no loop. -/
lemma strays_of_exposes {b v : NodeId} {body ds : List NodeId} {kind : VarKind} {name : String}
    (block : e.tree.kind b = .blockStatement body) (h : e.Exposes b v)
    (hk : e.tree.kind v = .variableDeclaration kind ds) (lexical : kind.isLexical = true)
    (declares : name ∈ e.tree.declaredNames ds) : e.Strays b name := by
  cases h with
  | self =>
    rw [block] at hk
    cases hk
  | @part p _ exposed shared part =>
    refine ⟨p, v, kind, ds, exposed, ?_, hk, lexical, declares⟩
    cases hp : e.tree.kind p with
    | blockStatement list =>
      rw [hp] at part
      have opens : e.tree.declaresLexically list = true :=
        List.any_eq_true.mpr ⟨v, part, by simp only [hk, lexical]⟩
      simp only [ownScope?, hp, opens, if_true] at shared
      cases shared
    | forStatement init test update loop =>
      rw [hp] at part
      rcases List.mem_append.mp part with opens | arm
      · obtain rfl := Option.mem_toList.mp opens
        simp [ownScope?, hp, Machine.lexicalInit, hk, lexical] at shared
      · exact arm
    | ifStatement | whileStatement =>
      rw [hp] at part
      exact part
    | _ =>
      rw [hp] at part
      cases part

/-- A block with a scope of its own exposes nothing but itself. -/
lemma not_strays_of_ownScope {b : NodeId} {body list : List NodeId}
    (block : e.tree.kind b = .blockStatement body) (opened : e.ownScope? b = some list)
    (name : String) : ¬ e.Strays b name := by
  rintro ⟨p, v, kind, ds, exposed, arm, -⟩
  have same : p = b := by
    clear arm
    induction exposed with
    | self => rfl
    | part h shared hc ih =>
      rw [ih, opened] at shared
      cases shared
  rw [same, block] at arm
  cases arm

end Setting

namespace Machine

variable {m : Machine}

/-- The next step binds the name in `outer` for a `var` that would assign to a constant. -/
def BindsOverConstant (m : Machine) (outer : ScopeId) (name : String) : Prop :=
  m.scope = outer ∧ m.varDeclared? = some name ∧
    m.store.assignTarget outer name = .error .constant

section

variable (hw : e.tree.WellFormed) {b : NodeId} {body : List NodeId}
  (block : e.tree.kind b = .blockStatement body)
include hw block

/-- A step binds no name in the scopes that there were, but in these two ways. -/
lemma names_step {old : Nat} {outer : ScopeId} {ps : List Pending}
    (h : m.Standing e (e.RunsIn b old outer) ps) (busy : ¬ m.BackAt ps) (hs : m.Scoped e)
    (running : m.isFinal = false → m.calls.toList ≠ [])
    (seen : ∀ name, m.varDeclared? = some name →
      m.store.assignTarget m.scope name ≠ .error .unbound)
    {scope : ScopeId} (before : scope < old) (inside : scope < m.store.scopes.size) {name : String}
    (bound : name ∈ ((m.step e).store.scope scope).names) :
    name ∈ (m.store.scope scope).names ∨
      scope = outer ∧ (e.Strays b name ∨ m.BindsOverConstant outer name) := by
  cases hf : m.isFinal with
  | true =>
    rw [step_of_isFinal hf] at bound
    exact .inl bound
  | false =>
    rcases ((rebinds_step running).mem_names inside name).mp bound with
      known | ⟨here, stays, declared, hb, rfl⟩ | ⟨here, var, fault, target⟩
    · exact .inl known
    · obtain ⟨v, kind, ds, exposed, hk, lexical, declares⟩ :=
        h.declares hw busy hs (running hf) (stays.trans here.symm) hb
      obtain ⟨same, exposed⟩ := exposed (here ▸ before)
      exact .inr ⟨here.symm.trans same,
        .inl (Setting.strays_of_exposes block exposed hk lexical declares)⟩
    · obtain ⟨v, ds, exposed, -, -⟩ := h.declaresVar busy var
      obtain ⟨same, -⟩ := exposed (here ▸ before)
      refine .inr ⟨here.symm.trans same, .inr ⟨same, var, ?_⟩⟩
      cases fault with
      | constant => exact same ▸ target
      | unbound => exact absurd target (seen name var)

/-- Until the block ends, no name is bound in the scopes that there were, but in these two ways. -/
lemma names_steps (reached : m.control = .exec b) (k : Nat)
    (busy : ∀ j < k, ¬ (m.steps e j).BackAt m.pending) (hs : ∀ j, (m.steps e j).Scoped e)
    (running : ∀ j, (m.steps e j).isFinal = false → (m.steps e j).calls.toList ≠ [])
    (seen : ∀ j name, (m.steps e j).varDeclared? = some name →
      (m.steps e j).store.assignTarget (m.steps e j).scope name ≠ .error .unbound)
    {scope : ScopeId} (before : scope < m.store.scopes.size) {name : String}
    (bound : name ∈ ((m.steps e k).store.scope scope).names) :
    name ∈ (m.store.scope scope).names ∨ scope = m.scope ∧
      (e.Strays b name ∨ ∃ j < k, (m.steps e j).BindsOverConstant m.scope name) := by
  have start : m.Standing e (e.RunsIn b m.store.scopes.size m.scope) m.pending := by
    refine ⟨fun id control _ => ⟨rfl, ?_⟩, [], rfl, .nil⟩
    rw [reached] at control
    cases control
    exact .self
  induction k with
  | zero => exact .inl bound
  | succ k ih =>
    have earlier : ∀ j < k, ¬ (m.steps e j).BackAt m.pending :=
      fun j hj => busy j (Nat.lt_succ_of_lt hj)
    have standing := start.steps (Setting.placing_runsIn b _ _) hw (Nat.le_refl _) k
      (fun j hj _ => earlier j hj) hs running
    have inside := Nat.lt_of_lt_of_le before (extends_steps running k).size
    rw [steps_succ] at bound
    rcases names_step hw block standing (busy k (Nat.lt_succ_self k)) (hs k) (running k) (seen k)
      before inside bound with known | ⟨here, stray | anew⟩
    · refine (ih earlier known).imp_right fun ⟨here, way⟩ => ⟨here, way.imp_right ?_⟩
      rintro ⟨j, hj, anew⟩
      exact ⟨j, Nat.lt_succ_of_lt hj, anew⟩
    · exact .inr ⟨here, .inl stray⟩
    · exact .inr ⟨here, .inr ⟨k, Nat.lt_succ_self k, anew⟩⟩

end

end Machine

namespace Interpreter

open Machine

variable {i : Interpreter} {t : Tree} {m : Machine}

/-- However a block ends, the scope that was innermost before is so again, and the scopes that there
were bind the names that they bound before. Only the innermost one may bind more: a name that a
`let` or `const` declares as a branch or as the body of a loop, outside of the blocks and loops
with scopes of their own, and a name of a `var` that has led to a constant. -/
theorem block_keeps_names {text : String} {options : ParseOptions}
    (parsed : Tree.parse text options = .ok t) (tags : List NodeId)
    (holds : Holds 0 (tags.foldl Tree.tag t) i) (starts : i.Starts 0 e m) {n k : Nat} {b : NodeId}
    {body : List NodeId} (reached : (m.steps e n).control = .exec b)
    (block : e.tree.kind b = .blockStatement body) (ends : (m.steps e n).EndsAfter e k) :
    ((m.steps e n).steps e k).scope = (m.steps e n).scope ∧
    ∀ scope < (m.steps e n).store.scopes.size, ∀ name,
      (name ∈ ((m.steps e n).store.scope scope).names →
        name ∈ (((m.steps e n).steps e k).store.scope scope).names) ∧
      (name ∈ (((m.steps e n).steps e k).store.scope scope).names →
        name ∈ ((m.steps e n).store.scope scope).names ∨ scope = (m.steps e n).scope ∧
          (e.Strays b name ∨ ∃ j < k,
            ((m.steps e n).steps e j).BindsOverConstant (m.steps e n).scope name)) := by
  have hw := (Tree.wellFormed_of_parse parsed).tags tags
  obtain ⟨tree, store⟩ := holds.scoped
  have own := starts.tree_eq.trans tree
  have hs (j : Nat) : ((m.steps e n).steps e j).Scoped e := by
    rw [← steps_add]
    exact starts.scoped_steps (store e own) (n + j)
  have running (j : Nat) (hf : ((m.steps e n).steps e j).isFinal = false) :
      ((m.steps e n).steps e j).calls.toList ≠ [] := by
    rw [← steps_add] at hf ⊢
    exact starts.running (n + j) hf
  have seen (j : Nat) (name : String)
      (var : ((m.steps e n).steps e j).varDeclared? = some name) :
      ((m.steps e n).steps e j).store.assignTarget ((m.steps e n).steps e j).scope name ≠
        .error .unbound := by
    rw [← steps_add] at var ⊢
    exact var_bound_ahead holds hw starts var
  constructor
  · rw [scope_eq, scope_eq, scopeOf_eq ends.sameButPc]
  · intro scope before name
    exact ⟨(extends_steps running k).names scope before name,
      names_steps (own ▸ hw) block reached k ends.first hs running seen before⟩

/-- A block whose constant is thrown ends with that error, and the scope around it binds nothing. -/
theorem block_keeps_names_thrown :
    ∃ (t : Tree) (i : Interpreter) (m : Machine) (body : List NodeId),
      Tree.parse "\x7b let x = true; throw x; \x7d" = .ok t ∧ Holds 0 t i ∧
      i.Starts 0 (i.setting neverHalt) m ∧
      (m.steps (i.setting neverHalt) 0).control = .exec 6 ∧ t.kind 6 = .blockStatement body ∧
      (m.steps (i.setting neverHalt) 0).EndsAfter (i.setting neverHalt) 10 ∧
      m.scope = 1 ∧ (m.steps (i.setting neverHalt) 10).scope = 1 ∧
      ((m.steps (i.setting neverHalt) 9).store.scope 2).names = ["x"] ∧
      "x" ∉ ((m.steps (i.setting neverHalt) 10).store.scope 1).names := by
  let text := "\x7b let x = true; throw x; \x7d"
  let t := (Tree.parse text).toOption.getD default
  let i := (ofTree t text false 10).newProgramScope
  let e := i.1.setting neverHalt
  let m := i.1.startProgram i.2 neverHalt
  have parsed : Tree.parse text = .ok t := Tree.parse_of_isSome (by decide +kernel)
  have holds : Holds 0 t i.1 := (Holds.built ..).scope
  have starts : i.1.Starts 0 e m :=
    .program (Nat.zero_le _) (ofTree t text false 10).newProgramScope_lt neverHalt
  have reached : m.control = .exec 6 := Control.eq_exec (by decide +kernel)
  have listed : 5 ∈ t.blockBody 6 := by decide +kernel
  have block := Tree.kind_of_mem_blockBody listed
  have opened : (e.ownScope? 6).isSome = true := by decide +kernel
  have ends : m.EndsAfter e 10 :=
    .of_length (by decide +kernel) (by decide +kernel) (by decide +kernel)
  have plain : (List.range 10).all (fun j => (m.steps e j).varDeclared?.isNone) = true := by
    decide +kernel
  have scope : m.scope = 1 := by decide +kernel
  have start : 1 < m.store.scopes.size ∧ (m.store.scope 1).names = [] := by decide +kernel
  have inner : ((m.steps e 9).store.scope 2).names = ["x"] := by decide +kernel
  obtain ⟨list, opened⟩ := Option.isSome_iff_exists.mp opened
  obtain ⟨back, keeps⟩ := block_keeps_names parsed [] holds starts (n := 0) reached block ends
  refine ⟨t, i.1, m, _, parsed, holds, starts, reached, block, ends, scope, back.trans scope,
    inner, fun bound => ?_⟩
  rcases (keeps 1 start.1 "x").2 bound with known | ⟨-, stray | ⟨j, hj, -, var, -⟩⟩
  · have known : "x" ∈ (m.store.scope 1).names := known
    rw [start.2] at known
    cases known
  · exact Setting.not_strays_of_ownScope block opened "x" stray
  · have none : (m.steps e j).varDeclared?.isNone = true :=
      List.all_eq_true.mp plain j (List.mem_range.mpr hj)
    have var : (m.steps e j).varDeclared? = some "x" := var
    rw [var] at none
    cases none

/-- A `let` that is the branch of an `if` leaves its name behind when the block around it has
ended. -/
theorem branch_leaves_name :
    ∃ (t : Tree) (i : Interpreter) (m : Machine) (body : List NodeId),
      Tree.parse "\x7b if (true) let x = 1; \x7d" = .ok t ∧ Holds 0 t i ∧
      i.Starts 0 (i.setting neverHalt) m ∧ m.control = .exec 6 ∧
      t.kind 6 = .blockStatement body ∧ m.EndsAfter (i.setting neverHalt) 8 ∧ m.scope = 1 ∧
      (m.store.scope 1).names = [] ∧
      ((m.steps (i.setting neverHalt) 8).store.scope 1).names = ["x"] := by
  let text := "\x7b if (true) let x = 1; \x7d"
  let t := (Tree.parse text).toOption.getD default
  let i := (ofTree t text false 10).newProgramScope
  let e := i.1.setting neverHalt
  let m := i.1.startProgram i.2 neverHalt
  have parsed : Tree.parse text = .ok t := Tree.parse_of_isSome (by decide +kernel)
  have reached : m.control = .exec 6 := Control.eq_exec (by decide +kernel)
  have listed : 5 ∈ t.blockBody 6 := by decide +kernel
  have block := Tree.kind_of_mem_blockBody listed
  have ends : m.EndsAfter e 8 :=
    .of_length (by decide +kernel) (by decide +kernel) (by decide +kernel)
  have names : m.scope = 1 ∧ (m.store.scope 1).names = [] ∧
      ((m.steps e 8).store.scope 1).names = ["x"] := by decide +kernel
  exact ⟨t, i.1, m, _, parsed, (Holds.built ..).scope,
    .program (Nat.zero_le _) (ofTree t text false 10).newProgramScope_lt neverHalt, reached, block,
    ends, names⟩

end Interpreter

end ScriptDebugger
