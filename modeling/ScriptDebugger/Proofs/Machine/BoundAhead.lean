import ScriptDebugger.Proofs.Machine.Standing

/-!
# Names that are bound in advance

A `var` that is given a value assigns to a name that has been bound when its
program or function was entered, in the innermost scope or in one around it
(`Setting.VarsBound`). To execute a function declaration is to do nothing, for
its name is bound when the program, the function or the block is entered that it
is listed in (`Setting.BoundAhead`). But a function can also be declared on its
own, as a branch or as the body of a loop. Hoisting looks for functions in lists
only, so such a declaration binds nothing, neither in advance nor when it is
executed.
-/

namespace ScriptDebugger

variable {e : Setting}

/-- The name is bound in the scope or in one around it. -/
inductive Store.Sees (s : Store) (name : String) : ScopeId → Prop
  | here {scope : ScopeId} (inside : scope < s.scopes.size) (bound : name ∈ (s.scope scope).names) :
    Sees s name scope
  | outward {scope p : ScopeId} (inside : scope < s.scopes.size)
    (parent : (s.scope scope).parent = some p) (rest : Sees s name p) : Sees s name scope

namespace Store

variable {s s' : Store} {name : String} {scope : ScopeId}

lemma Sees.mono (h : s.Sees name scope) (extends_ : s.Extends s') : s'.Sees name scope := by
  induction h with
  | here inside bound =>
    exact .here (Nat.lt_of_lt_of_le inside extends_.size) (extends_.names _ inside name bound)
  | outward inside parent rest ih =>
    exact .outward (Nat.lt_of_lt_of_le inside extends_.size)
      ((extends_.parent _ inside).trans parent) ih

lemma Sees.mem_chain (h : s.Sees name scope) (older : s.Older) :
    ∃ id ∈ s.chain scope, name ∈ (s.scope id).names := by
  induction h with
  | @here scope inside bound =>
    refine ⟨scope, ?_, bound⟩
    cases hp : (s.scope scope).parent with
    | none => simp [chain_of_none hp]
    | some p => simp [chain_of_some older hp]
  | outward inside parent rest ih =>
    obtain ⟨id, member, bound⟩ := ih
    exact ⟨id, chain_of_some older parent ▸ List.mem_cons_of_mem _ member, bound⟩

/-- An assignment to such a name finds it, though it may find a constant. -/
lemma Sees.assignTarget_ne (h : s.Sees name scope) (older : s.Older) :
    s.assignTarget scope name ≠ .error .unbound := by
  obtain ⟨id, member, bound⟩ := h.mem_chain older
  rw [assignTarget]
  split
  case h_1 none =>
    have unbound := List.find?_eq_none.mp none id member
    rw [Scope.binds_iff] at unbound
    exact absurd bound unbound
  case h_2 =>
    intro none
    split at none <;> cases none

end Store

/-- The `var` declarations in a statement are bound in the scope or in one around it. -/
def Setting.VarsBound (e : Setting) (s : Store) (scope : ScopeId) (id : NodeId) : Prop :=
  ∀ name ∈ e.tree.varNamesFrom (e.tree.size + 1) id, s.Sees name scope

lemma Setting.placing_varsBound (hw : e.tree.WellFormed) : e.Placing 0 e.VarsBound where
  mono := fun h extends_ name declared => (h name declared).mono extends_
  inner := fun h _ part name declared =>
    h name (hw.mem_varNamesIn.mpr (.inr ⟨_, part, declared⟩))
  own := fun {s scope id c body} h _ _ _ part name declared => by
    have new := s.lt_newScope (some scope)
    have hoisted := Store.Extends.hoistFunctions (s.newScope (some scope)).1 e s.scopes.size body
    have known := h name (hw.mem_varNamesIn.mpr (.inr ⟨c, part, declared⟩))
    refine .outward (Nat.lt_of_lt_of_le new hoisted.size) (p := scope) ?_
      (known.mono ((Store.Extends.of_keeps (.newScope s _)).trans hoisted))
    rw [hoisted.parent _ new, Store.scope_newScope, if_pos rfl]
    rfl
  function := fun {s c} _ _ args id hid name declared =>
    .here (Machine.lt_enteredStore s c args) (Machine.mem_names_enteredStore s c args
      (.inl (List.mem_flatMap.mpr ⟨id, hid, declared⟩)))

/-- The scope binds the functions that are declared in the list that a statement is in. -/
def Setting.BoundAhead (e : Setting) (s : Store) (scope : ScopeId) (id : NodeId) : Prop :=
  scope < s.scopes.size ∧ ∀ p, id ∈ (e.tree.kind p).statementList →
    ∀ name ∈ e.tree.functionNames (e.tree.kind p).statementList, name ∈ (s.scope scope).names

namespace Setting

/-- A part of a statement is in a list of its own only if that statement is a block. -/
lemma block_of_substatements (hw : e.tree.WellFormed) {id p c : NodeId}
    (part : c ∈ (e.tree.kind id).substatements) (listed : c ∈ (e.tree.kind p).statementList) :
    p = id ∧ ∃ body, e.tree.kind id = .blockStatement body := by
  obtain rfl : p = id := hw.unique _ _ c (NodeKind.mem_children_of_statementList listed)
    (NodeKind.mem_children_of_substatements part)
  refine ⟨rfl, ?_⟩
  cases hk : e.tree.kind p with
  | blockStatement body => exact ⟨body, rfl⟩
  | program body =>
    rw [hk] at part
    cases part
  | _ =>
    rw [hk] at listed
    cases listed

/-- Blocks that declare functions have scopes of their own, and hoisting fills these and the scopes
of functions. -/
lemma placing_boundAhead (hw : e.tree.WellFormed) : e.Placing 0 e.BoundAhead where
  mono := fun h extends_ =>
    ⟨Nat.lt_of_lt_of_le h.1 extends_.size, fun p listed name declared =>
      extends_.names _ h.1 name (h.2 p listed name declared)⟩
  inner := fun h shared part => by
    refine ⟨h.1, fun p listed name declared => ?_⟩
    obtain ⟨rfl, body, block⟩ := block_of_substatements hw part listed
    rw [block] at declared
    have opens : e.tree.declaresLexically body = true :=
      Tree.declaresLexically_of_functionNames declared
    simp only [ownScope?, block, opens, if_true] at shared
    cases shared
  own := fun {s scope id c body} _ _ _ opened part => by
    have inside := s.lt_newScope (some scope)
    have size := (s.newScope (some scope)).1.size_hoistFunctions e s.scopes.size body
    refine ⟨Nat.lt_of_lt_of_eq inside size.symm, fun p listed name declared => ?_⟩
    obtain ⟨rfl, list, block⟩ := block_of_substatements hw part listed
    rw [ownScope?, block] at opened
    obtain ⟨-, same⟩ := Option.ite_none_right_eq_some.mp opened
    obtain rfl : list = body := Option.some.inj same
    rw [block] at declared
    exact (Store.mem_names_hoistFunctions inside list name).mpr (.inr declared)
  function := fun {s c} _ _ args id hid => by
    refine ⟨Machine.lt_enteredStore s c args, fun p listed name declared => ?_⟩
    have same : e.tree.blockBody c.body = (e.tree.kind c.body).statementList := by
      rw [Tree.kind_of_mem_blockBody hid]
      rfl
    have own := same ▸ hid
    obtain rfl : p = c.body := hw.list_unique listed own
    exact Machine.mem_names_enteredStore s c args (.inr (same ▸ declared))

end Setting

namespace Machine

/-- To execute a function declaration changes nothing in the store. -/
lemma store_step_functionDeclaration {m : Machine} {id nameId body : NodeId}
    {params : List NodeId} (reached : m.control = .exec id)
    (declaration : e.tree.kind id = .functionDeclaration nameId params body) :
    (m.step e).store = m.store := by
  obtain ⟨store, calls, output, control, pending⟩ := m
  obtain rfl : control = .exec id := reached
  show (execNode e ⟨store, calls, output, .done, pending⟩ id).store = store
  simp only [execNode, declaration]
  split <;> rfl

end Machine

namespace Interpreter

open Machine

variable {i : Interpreter} {t : Tree} {m : Machine}

/-- A `var` that is given a value finds its name bound. -/
theorem var_bound_ahead (holds : Holds 0 t i) (hw : t.WellFormed) (starts : i.Starts 0 e m)
    {n : Nat} {name : String} (var : (m.steps e n).varDeclared? = some name) :
    (m.steps e n).store.assignTarget (m.steps e n).scope name ≠ .error .unbound := by
  obtain ⟨tree, store⟩ := holds.scoped
  have own := starts.tree_eq.trans tree
  have standing := holds.standing_steps hw starts (Setting.placing_varsBound (own ▸ hw))
    (fun scope inside id hid name declared => by
      have size := i.store.size_hoist e scope i.body
      exact .here (Nat.lt_of_lt_of_eq inside size.symm) ((Store.mem_names_hoist inside i.body
        name).mpr (.inr (.inl (List.mem_flatMap.mpr ⟨id, hid, declared⟩))))) n
  have busy : ¬ (m.steps e n).BackAt [] := by
    rintro ⟨-, none⟩
    simp [varDeclared?, none] at var
  obtain ⟨v, ds, bound, hk, declares⟩ := standing.declaresVar busy var
  have older := (starts.scoped_steps (store e own) n).store.older
  exact (bound name ((own ▸ hw).mem_varNamesIn.mpr (.inl ⟨ds, hk, declares⟩))).assignTarget_ne older

/-- The statements of the program start in a scope that binds its functions. -/
lemma boundAhead_body (hw : e.tree.WellFormed) (same : e.tree = i.tree) {scope : ScopeId}
    (inside : scope < i.store.scopes.size) {id : NodeId} (hid : id ∈ i.body) :
    e.BoundAhead (i.store.hoist e scope i.body) scope id := by
  have size := i.store.size_hoist e scope i.body
  refine ⟨Nat.lt_of_lt_of_eq inside size.symm, fun p listed name declared => ?_⟩
  obtain ⟨own, list⟩ : id ∈ (e.tree.kind i.root).statementList ∧
      i.body = (e.tree.kind i.root).statementList := by
    rw [Interpreter.body, programBody] at hid ⊢
    rw [same]
    split at hid
    case h_1 body program =>
      rw [program]
      exact ⟨hid, rfl⟩
    case h_2 => cases hid
  obtain rfl : p = i.root := hw.list_unique listed own
  exact (Store.mem_names_hoist inside i.body name).mpr (.inr (.inr (list ▸ declared)))

/-- When a run comes to a function declaration that is listed in a program, function or block, the
innermost scope binds its name. Any other is a branch or the body of a loop, and then as ever the
declaration is passed without a change to the store. -/
theorem function_bound_ahead {text : String} {options : ParseOptions}
    (parsed : Tree.parse text options = .ok t) (tags : List NodeId)
    (holds : Holds 0 (tags.foldl Tree.tag t) i) (starts : i.Starts 0 e m) {n : Nat}
    {id nameId body : NodeId} {params : List NodeId}
    (reached : (m.steps e n).control = .exec id)
    (declaration : e.tree.kind id = .functionDeclaration nameId params body) :
    (m.steps e (n + 1)).store = (m.steps e n).store ∧ ∃ p, e.tree.parent id = some p ∧
      (id ∈ (e.tree.kind p).statementList ∧ e.tree.nameOf nameId ∈
          ((m.steps e n).store.scope (m.steps e n).scope).names ∨
        id ∈ (e.tree.kind p).arms) := by
  have hw := (Tree.wellFormed_of_parse parsed).tags tags
  have same := starts.tree_eq
  have own : e.tree = tags.foldl Tree.tag t := same.trans holds.scoped.1
  constructor
  · rw [steps_succ]
    exact store_step_functionDeclaration reached declaration
  obtain ⟨p, parent, place⟩ := (own ▸ hw).parent_of_functionDeclaration declaration
  refine ⟨p, parent, place.imp_left fun listed => ⟨listed, ?_⟩⟩
  have standing := holds.standing_steps hw starts (Setting.placing_boundAhead (own ▸ hw))
    (fun scope inside id hid => boundAhead_body (own ▸ hw) same inside hid) n
  have ahead := (standing.control id reached).2 p listed
  exact ahead _ (Tree.mem_functionNames.mpr ⟨id, listed, nameId, params, body, declaration, rfl⟩)

/-- A function that is declared in a block is bound when the run comes to it. -/
theorem function_bound_ahead_in_block :
    ∃ (t : Tree) (i : Interpreter) (m : Machine) (nameId body : NodeId) (params : List NodeId),
      Tree.parse "if (true) \x7b function f() \x7b\x7d \x7d" = .ok t ∧ Holds 0 t i ∧
      i.Starts 0 (i.setting neverHalt) m ∧
      (m.steps (i.setting neverHalt) 4).control = .exec 3 ∧
      t.kind 3 = .functionDeclaration nameId params body ∧
      "f" ∈ ((m.steps (i.setting neverHalt) 4).store.scope
        (m.steps (i.setting neverHalt) 4).scope).names ∧
      (m.steps (i.setting neverHalt) 5).store = (m.steps (i.setting neverHalt) 4).store := by
  let text := "if (true) \x7b function f() \x7b\x7d \x7d"
  let t := (Tree.parse text).toOption.getD default
  let i := (ofTree t text false 10).newProgramScope
  let e := i.1.setting neverHalt
  let m := i.1.startProgram i.2 neverHalt
  have parsed : Tree.parse text = .ok t := Tree.parse_of_isSome (by decide +kernel)
  have holds : Holds 0 t i.1 := (Holds.built ..).scope
  have starts : i.1.Starts 0 e m :=
    .program (Nat.zero_le _) (ofTree t text false 10).newProgramScope_lt neverHalt
  have reached : (m.steps e 4).control = .exec 3 := Control.eq_exec (by decide +kernel)
  have declared : "f" ∈ t.functionNames [3] := by decide +kernel
  have listed : (t.parent 3).map (fun p => (t.kind p).arms) = some [] := by decide +kernel
  obtain ⟨id, hid, nameId, params, body, declaration, name⟩ := Tree.mem_functionNames.mp declared
  obtain rfl := List.mem_singleton.mp hid
  obtain ⟨store, p, parent, place⟩ :=
    function_bound_ahead parsed [] holds starts reached declaration
  obtain ⟨q, known, noArm⟩ := Option.map_eq_some_iff.mp listed
  obtain rfl : q = p := Option.some.inj (known.symm.trans parent)
  rcases place with ⟨-, bound⟩ | arm
  · have bound : t.nameOf nameId ∈ ((m.steps e 4).store.scope (m.steps e 4).scope).names := bound
    rw [name] at bound
    exact ⟨t, i.1, m, nameId, body, params, parsed, holds, starts, reached, declaration, bound,
      store⟩
  · have arm : 3 ∈ (t.kind q).arms := arm
    rw [noArm] at arm
    cases arm

/-- A function that is declared on its own as the branch of an `if` is not bound when the run comes
to it. -/
theorem function_in_branch_unbound :
    ∃ (t : Tree) (i : Interpreter) (m : Machine) (nameId body : NodeId) (params : List NodeId),
      Tree.parse "if (true) function f() \x7b\x7d" = .ok t ∧ Holds 0 t i ∧
      i.Starts 0 (i.setting neverHalt) m ∧
      (m.steps (i.setting neverHalt) 3).control = .exec 3 ∧
      t.kind 3 = .functionDeclaration nameId params body ∧ t.nameOf nameId = "f" ∧
      "f" ∉ ((m.steps (i.setting neverHalt) 3).store.scope
        (m.steps (i.setting neverHalt) 3).scope).names := by
  let text := "if (true) function f() \x7b\x7d"
  let t := (Tree.parse text).toOption.getD default
  let i := (ofTree t text false 10).newProgramScope
  let e := i.1.setting neverHalt
  let m := i.1.startProgram i.2 neverHalt
  have parsed : Tree.parse text = .ok t := Tree.parse_of_isSome (by decide +kernel)
  have reached : (m.steps e 3).control = .exec 3 := Control.eq_exec (by decide +kernel)
  have declared : "f" ∈ t.functionNames [3] := by decide +kernel
  have unbound : "f" ∉ ((m.steps e 3).store.scope (m.steps e 3).scope).names := by decide +kernel
  obtain ⟨id, hid, nameId, params, body, declaration, name⟩ := Tree.mem_functionNames.mp declared
  obtain rfl := List.mem_singleton.mp hid
  exact ⟨t, i.1, m, nameId, body, params, parsed, (Holds.built ..).scope,
    .program (Nat.zero_le _) (ofTree t text false 10).newProgramScope_lt neverHalt, reached,
    declaration, name, unbound⟩

end Interpreter

end ScriptDebugger
