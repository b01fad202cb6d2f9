import ScriptDebugger.Proofs.Debugger.LoneFunction
import ScriptDebugger.Proofs.Machine.Quotes

/-!
# Functions from their texts

The text of a function value is always a complete function. Put in parentheses it is a program, the
program has a copy of the function, and with room for one activation it evaluates to that function
(`callable_of_display`).
-/

namespace ScriptDebugger

namespace Tree

variable {t t' : Tree} {id id' : NodeId} {name : Option NodeId} {params : List NodeId}
  {body : NodeId}

/-- No two functions share a body. -/
lemma WellFormed.function_unique (hw : t.WellFormed) {name' : Option NodeId}
    {params' : List NodeId} (h : (t.kind id).asExpression = .functionExpression name params body)
    (h' : (t.kind id').asExpression = .functionExpression name' params' body) : id = id' := by
  refine hw.unique id id' body ?_ ?_
  · rw [children, ← NodeKind.children_asExpression, h]
    exact List.mem_append_right _ (List.mem_singleton_self body)
  · rw [children, ← NodeKind.children_asExpression, h']
    exact List.mem_append_right _ (List.mem_singleton_self body)

/-- The name and the parameters of a function are identifiers. -/
lemma WellFormed.names_function (hw : t.WellFormed)
    (h : (t.kind id).asExpression = .functionExpression name params body) :
    (name.bind fun n => (t.kind n).name?) = name.map t.nameOf ∧
      (params.filterMap fun p => (t.kind p).name?) = params.map t.nameOf := by
  have shape := hw.shape id
  rw [children, ← NodeKind.roles_asExpression, ← NodeKind.children_asExpression, h] at shape
  simp only [NodeKind.roles, NodeKind.children] at shape
  rw [forall₂_append_iff (by simp), forall₂_append_iff (by simp), forall₂_option,
    forall₂_replicate] at shape
  obtain ⟨⟨named, parameters⟩, -⟩ := shape
  constructor
  · cases name with
    | none => rfl
    | some n => exact name?_of_admits (named n rfl)
  · rw [List.filterMap_congr fun p hp => name?_of_admits (parameters p hp)]
    exact congrFun List.filterMap_eq_map params

lemma Copy.params_eq {f : Nat → Nat} {ids ids' : List NodeId}
    (h : List.Forall₂ (Copy f t t') ids ids') : ids'.map t'.nameOf = ids.map t.nameOf := by
  induction h with
  | nil => rfl
  | cons copy _ ih => rw [List.map_cons, List.map_cons, copy.nameOf_eq, ih]

lemma Copy.name_eq {f : Nat → Nat} {name name' : Option NodeId}
    (h : Option.Rel (Copy f t t') name name') : name'.map t'.nameOf = name.map t.nameOf := by
  cases h with
  | none => rfl
  | some copy => exact congrArg some copy.nameOf_eq

end Tree

namespace Interpreter

open Machine

/-- In every state of every run, a function is shown as the text of the node that has its body. -/
lemma Holds.display_function {low : ScopeId} {t : Tree} {i : Interpreter} {e : Setting}
    {m : Machine} (h : Holds low t i) (hw : t.WellFormed) (starts : i.Starts low e m) (n : Nat) {id : NodeId}
    {name : Option NodeId} {params : List NodeId} {body : NodeId}
    (function : (t.kind id).asExpression = .functionExpression name params body) {ref : Ref}
    (made : ref < (m.steps e n).store.closures.size)
    (same : ((m.steps e n).store.closure ref).body = body) :
    (m.steps e n).store.display (.function ref) = (t.span id).slice i.source := by
  obtain ⟨tree, source, quotes⟩ := h.quotes_steps starts n
  have found : (m.steps e n).store.closures[ref]? =
      some ((m.steps e n).store.closure ref) := by
    rw [Store.closure, Array.getElem?_eq_getElem made]
    rfl
  obtain ⟨id', name', params', body', shown, scope, kind, closure⟩ :=
    quotes _ (Array.mem_of_getElem? found)
  -- the body tells which node it was made of
  rw [closure] at same
  obtain rfl : body' = body := same
  rw [tree] at kind
  obtain rfl := hw.function_unique kind function
  have text : ((m.steps e n).store.closure ref).text = (e.tree.span id').slice e.source := by
    rw [closure]
    rfl
  rw [tree, source] at text
  exact text

/-- What a function of a script is shown as, in any state of any run, is a function. In parentheses
it is a program of one expression, a function with the same name, the same parameters and a copy of
the body, whether it was declared or not; and with room for one activation the program evaluates to
that function. -/
theorem callable_of_display (text : String) (options : ParseOptions) (t : Tree)
    (parsed : Tree.parse text options = .ok t) (id : NodeId) (name : Option NodeId)
    (params : List NodeId) (body : NodeId)
    (function : (t.kind id).asExpression = .functionExpression name params body) :
    (∀ (i : Interpreter) (e : Setting) (m : Machine) (n : Nat) (ref : Ref), Holds 0 t i →
      i.source = text → i.Starts 0 e m → ref < (m.steps e n).store.closures.size →
      ((m.steps e n).store.closure ref).body = body →
      (m.steps e n).store.display (.function ref) = (t.span id).slice text) ∧
    ∃ (t' : Tree) (id' : NodeId) (name' : Option NodeId) (params' : List NodeId) (body' : NodeId),
      Tree.parse (parenthesize ((t.span id).slice text)) = .ok t' ∧ t'.SoleExpression id' ∧
      t'.kind id' = .functionExpression name' params' body' ∧
      name'.map t'.nameOf = name.map t.nameOf ∧ params'.map t'.nameOf = params.map t.nameOf ∧
      Tree.Copy (Token.reseat (t.span id).start) t t' body body' ∧
      ∀ maxDepth ≥ 1, ∃ least, ∀ fuel ≥ least, ∃ c,
        callableOfText fuel maxDepth (parenthesize ((t.span id).slice text)) = some (.ok c) ∧
        c.closure.name = name.map t.nameOf ∧ c.closure.params = params.map t.nameOf ∧
        c.closure.body = body' := by
  have hw := Tree.wellFormed_of_parse parsed
  refine ⟨fun i e m n ref h source starts made same => ?_, ?_⟩
  · rw [← source]
    exact h.display_function hw starts n function made same
  · obtain ⟨t', id', name', params', body', parsed', sole, kind, -, names, parameters, copy⟩ :=
      Tree.exists_tree_of_function parsed function {}
    have names := Tree.Copy.name_eq names
    have parameters := Tree.Copy.params_eq parameters
    refine ⟨t', id', name', params', body', parsed', sole, kind, names, parameters, copy,
      fun maxDepth room => ⟨2, fun fuel least => ?_⟩⟩
    obtain ⟨k, rfl⟩ := Nat.exists_eq_add_of_le' least
    obtain ⟨c, run, scope, closure⟩ := callableOfText_of_sole parsed' sole kind room k
    obtain ⟨named, declared⟩ := (Tree.wellFormed_of_parse parsed').names_function
      (by rw [kind]; rfl)
    refine ⟨c, run, ?_, ?_, ?_⟩
    · rw [closure, ← names, ← named]
      rfl
    · rw [closure, ← parameters, ← declared]
      rfl
    · rw [closure]
      rfl

/-- A function that is declared after another statement, when the program starts. -/
theorem callable_of_display_declared :
    ∃ (t t' : Tree) (i : Interpreter) (e : Setting) (m : Machine) (id' body' : NodeId)
      (name' : Option NodeId) (params' : List NodeId) (c : Callable) (fuel : Nat),
      Tree.parse "var g = 1;\nfunction f(n) \x7b return n; \x7d" = .ok t ∧
      (t.kind 9).asExpression = .functionExpression (some 4) [5] 8 ∧
      Holds 0 t i ∧ i.Starts 0 e m ∧ m.store.closures.size = 1 ∧
      m.store.display (.function 0) = "function f(n) \x7b return n; \x7d" ∧
      Tree.parse "(function f(n) \x7b return n; \x7d);" = .ok t' ∧ t'.SoleExpression id' ∧
      t'.kind id' = .functionExpression name' params' body' ∧
      Tree.Copy (Token.reseat 11) t t' 8 body' ∧
      callableOfText fuel 1 "(function f(n) \x7b return n; \x7d);" = some (.ok c) ∧
      c.closure.name = some "f" ∧ c.closure.params = ["n"] ∧ c.closure.body = body' := by
  let text := "var g = 1;\nfunction f(n) \x7b return n; \x7d"
  let start (t : Tree) : Machine :=
    let i := (ofTree t text false 1).newProgramScope
    i.1.startProgram i.2 neverHalt
  have facts : ((Tree.parse text).toOption.map fun t => (t.span 9, t.nameOf 4, t.nameOf 5,
      (start t).store.closures.size, ((start t).store.closure 0).body)) =
        some (⟨11, 38⟩, "f", "n", 1, 8) := by decide +kernel
  have declared : ((Tree.parse text).toOption.map fun t => ((t.kind 9).isStatement,
      (t.kind 9).isFunction, (t.kind 9).children)) = some (true, true, [4, 5, 8]) := by
    decide +kernel
  cases parsed : Tree.parse text with
  | error e => simp [parsed, Except.toOption] at facts
  | ok t =>
    rw [parsed] at facts declared
    obtain ⟨span, named, param, made, body⟩ : t.span 9 = ⟨11, 38⟩ ∧ t.nameOf 4 = "f" ∧
        t.nameOf 5 = "n" ∧ (start t).store.closures.size = 1 ∧
        ((start t).store.closure 0).body = 8 := by simpa [Except.toOption] using facts
    have function : (t.kind 9).asExpression = .functionExpression (some 4) [5] 8 := by
      obtain ⟨statement, function, children⟩ : (t.kind 9).isStatement = true ∧
          (t.kind 9).isFunction = true ∧ (t.kind 9).children = [4] ++ [5] ++ [8] := by
        simpa [Except.toOption] using declared
      cases kind : t.kind 9 <;> rw [kind] at statement function children
      case functionDeclaration name params body =>
        obtain ⟨names, last⟩ := List.append_inj' children rfl
        cases names
        cases last
        rfl
      case functionExpression => cases statement
      all_goals cases function
    have slice : (t.span 9).slice text = "function f(n) \x7b return n; \x7d" := by
      rw [span]
      decide +kernel
    obtain ⟨shown, t', id', name', params', body', parsed', sole, kind, -, -, copy, callable⟩ :=
      callable_of_display text {} t parsed 9 (some 4) [5] 8 function
    rw [slice] at parsed' shown callable
    obtain ⟨least, callable⟩ := callable 1 (Nat.le_refl 1)
    obtain ⟨c, run, cname, cparams, cbody⟩ := callable least (Nat.le_refl least)
    rw [span] at copy
    have holds : Holds 0 t (ofTree t text false 1).newProgramScope.1 := (Holds.built ..).scope
    have starts := Starts.program (Nat.zero_le _) (ofTree t text false 1).newProgramScope_lt
      neverHalt
    refine ⟨t, t', _, _, start t, id', body', name', params', c, least, rfl, function, holds,
      starts, made, ?_, parsed', sole, kind, copy, run, ?_, ?_, cbody⟩
    · refine shown _ _ (start t) 0 0 holds rfl starts ?_ body
      rw [Machine.steps, made]
      decide
    · rw [cname, Option.map_some, named]
    · rw [cparams, List.map_singleton, param]

end Interpreter

end ScriptDebugger
