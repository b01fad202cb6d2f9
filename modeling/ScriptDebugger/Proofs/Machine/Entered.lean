import ScriptDebugger.Proofs.Machine.Balance
import ScriptDebugger.Proofs.Machine.Hoisting
import ScriptDebugger.Proofs.Syntax.Shape
import ScriptDebugger.Proofs.Value.Bindings

/-!
# What a new activation binds

A function is entered in a new scope, in which first its parameters get their
arguments, then the names of its `var` declarations get no value unless they are
parameters, and last its functions take their names over from either. What such
a scope binds is read off `find?`, one kind of declaration after the other.
-/

namespace ScriptDebugger

namespace Store

variable {s : Store} {scope : ScopeId}

lemma find?_define (hs : scope < s.scopes.size) (name : String) (v : Value) (isMutable : Bool)
    (x : String) : ((s.define scope name v isMutable).scope scope).find? x =
      if name = x then some ⟨name, v, isMutable⟩ else (s.scope scope).find? x := by
  rw [scope_define_eq, if_pos ⟨rfl, hs⟩, Scope.find?_define]

/-- A parameter is bound to the argument in the place where its name comes last. -/
lemma find?_bindParams (hs : scope < s.scopes.size) (params : List String) (args : List Value)
    (x : String) :
    (x ∉ params ∧ ((Machine.bindParams s scope params args).scope scope).find? x =
        (s.scope scope).find? x) ∨
      ∃ k, params[k]? = some x ∧ x ∉ params.drop (k + 1) ∧
        ((Machine.bindParams s scope params args).scope scope).find? x =
          some ⟨x, args[k]?.getD .undefined, true⟩ := by
  induction params generalizing s args with
  | nil => exact .inl ⟨List.not_mem_nil, rfl⟩
  | cons p ps ih =>
    have first (v : Value) : scope < (s.define scope p v true).scopes.size :=
      Nat.lt_of_lt_of_eq hs (SameScopes.define s scope p v true).size.symm
    obtain ⟨v, vs, arguments, hv⟩ : ∃ v vs, (∀ k : Nat, (args[k + 1]?.getD .undefined) =
        (vs[k]?.getD .undefined)) ∧ args[0]?.getD .undefined = v ∧
        Machine.bindParams s scope (p :: ps) args =
          Machine.bindParams (s.define scope p v true) scope ps vs := by
      cases args with
      | nil => exact ⟨.undefined, [], by simp, rfl, rfl⟩
      | cons v vs => exact ⟨v, vs, by simp, rfl, rfl⟩
    rw [hv.2]
    rcases ih (first v) vs with ⟨other, found⟩ | ⟨k, place, last, found⟩
    · rw [found, find?_define hs]
      by_cases own : p = x
      · subst own
        exact .inr ⟨0, rfl, other, by rw [if_pos rfl, hv.1]⟩
      · refine .inl ⟨fun member => ?_, if_neg own⟩
        rcases List.mem_cons.mp member with rfl | member
        · exact own rfl
        · exact other member
    · exact .inr ⟨k + 1, place, last, by rw [found, arguments]⟩

lemma find?_declareVars (hs : scope < s.scopes.size) (names : List String) (x : String) :
    ((names.foldl (fun s name => s.declareVar scope name) s).scope scope).find? x =
      ((s.scope scope).find? x).or (if x ∈ names then some ⟨x, .undefined, true⟩ else none) := by
  induction names generalizing s with
  | nil => simp
  | cons name rest ih =>
    rw [List.foldl_cons, ih (Nat.lt_of_lt_of_eq hs (SameScopes.declareVar s scope name).size.symm)]
    rw [declareVar]
    split
    case isTrue bound =>
      obtain ⟨b, found⟩ := (Scope.mem_names_iff _ name).mp ((Scope.binds_iff _ name).mp bound)
      by_cases own : x = name
      · subst own
        simp [found]
      · simp [own]
    case isFalse free =>
      rw [Scope.binds_iff, Scope.mem_names_iff] at free
      rw [find?_define hs]
      by_cases own : name = x
      · subst own
        have none : (s.scope scope).find? name = none := by
          rw [Option.eq_none_iff_forall_ne_some]
          exact fun b found => free ⟨b, found⟩
        simp [none]
      · have other : ¬ x = name := fun h => own h.symm
        simp [own, other]

/-- A function that a body declares has its name, and no other name changes. -/
lemma find?_hoistFunctions {e : Setting} (hs : scope < s.scopes.size) (body : List NodeId)
    (x : String) :
    (x ∉ e.tree.functionNames body ∧
        ((s.hoistFunctions e scope body).scope scope).find? x = (s.scope scope).find? x) ∨
      x ∈ e.tree.functionNames body ∧
        ∃ ref, ((s.hoistFunctions e scope body).scope scope).find? x =
          some ⟨x, .function ref, true⟩ := by
  induction body generalizing s with
  | nil => exact .inl ⟨List.not_mem_nil, rfl⟩
  | cons id rest ih =>
    have size : scope < (s.declareFunction e scope id).scopes.size :=
      Nat.lt_of_lt_of_eq hs (s.size_declareFunction e scope id).symm
    rw [hoistFunctions, List.foldl_cons, ← hoistFunctions]
    rcases ih size with ⟨other, found⟩ | ⟨member, found⟩
    · rw [found, declareFunction]
      split
      case h_1 nameId params b hk =>
        have names : e.tree.functionNames (id :: rest) =
            e.tree.nameOf nameId :: e.tree.functionNames rest := by
          simp [Tree.functionNames, hk]
        have own : scope < (s.newClosure (e.closure id (some (e.tree.nameOf nameId)) params b
            scope)).1.scopes.size := hs
        rw [names]
        simp only [find?_define own]
        by_cases same : e.tree.nameOf nameId = x
        · rw [if_pos same, same]
          exact .inr ⟨List.mem_cons_self, _, rfl⟩
        · rw [if_neg same]
          refine .inl ⟨fun member => ?_, rfl⟩
          rcases List.mem_cons.mp member with rfl | member
          · exact same rfl
          · exact other member
      case h_2 hk =>
        refine .inl ⟨fun member => other ?_, rfl⟩
        obtain ⟨c, hc, nameId, params, b, hkc, name⟩ := Tree.mem_functionNames.mp member
        rcases List.mem_cons.mp hc with rfl | hc
        · exact absurd hkc (hk nameId params b)
        · exact Tree.mem_functionNames.mpr ⟨c, hc, nameId, params, b, hkc, name⟩
    · obtain ⟨c, hc, declared⟩ := Tree.mem_functionNames.mp member
      exact .inr ⟨Tree.mem_functionNames.mpr ⟨c, List.mem_cons_of_mem id hc, declared⟩, found⟩

lemma mem_names_hoistFunctions {e : Setting} (hs : scope < s.scopes.size) (body : List NodeId)
    (x : String) : x ∈ ((s.hoistFunctions e scope body).scope scope).names ↔
      x ∈ (s.scope scope).names ∨ x ∈ e.tree.functionNames body := by
  rw [Scope.mem_names_iff, Scope.mem_names_iff]
  rcases find?_hoistFunctions (e := e) hs body x with ⟨other, found⟩ | ⟨member, ref, found⟩
  · simp [found, other]
  · simp [found, member]

lemma mem_names_hoist {e : Setting} (hs : scope < s.scopes.size) (body : List NodeId)
    (x : String) : x ∈ ((s.hoist e scope body).scope scope).names ↔
      x ∈ (s.scope scope).names ∨ x ∈ e.tree.varNames body ∨ x ∈ e.tree.functionNames body := by
  have size := Nat.lt_of_lt_of_eq hs
    (SameScopes.declareVars s scope (e.tree.varNames body)).size.symm
  rw [hoist, mem_names_hoistFunctions size, Scope.mem_names_iff, Scope.mem_names_iff,
    find?_declareVars hs, ← or_assoc]
  refine or_congr_left ?_
  by_cases declared : x ∈ e.tree.varNames body <;>
    cases (s.scope scope).find? x <;> simp [declared]

end Store

/-- The parameters of a function. -/
def NodeKind.functionParams {α : Type} : NodeKind α → List α
  | functionDeclaration _ params _ | functionExpression _ params _ => params
  | _ => []

/-- The function of node `f`, closed over `outer`. -/
def Setting.closureOf (e : Setting) (f : NodeId) (name : Option String) (body : NodeId)
    (outer : ScopeId) : Closure :=
  e.closure f name (e.tree.kind f).functionParams body outer

/-- A scope as an activation of function or program `o` starts in it: it binds the parameters, the
variables and the functions that are declared there and nothing else. -/
structure Scope.Opens (t : Tree) (o : NodeId) (params : List String) (args : List Value)
    (s : Scope) : Prop where
  names : ∀ x, x ∈ s.names ↔ x ∈ params ∨ (∃ d, t.DeclaresVar d x ∧ t.owner d = o) ∨
    x ∈ t.functionNames (t.bodyOf o)
  unset : ∀ x, (∃ d, t.DeclaresVar d x ∧ t.owner d = o) → x ∉ params →
    x ∉ t.functionNames (t.bodyOf o) → s.find? x = some ⟨x, .undefined, true⟩
  given : ∀ x ∈ params, x ∉ t.functionNames (t.bodyOf o) →
    ∃ k, params[k]? = some x ∧ x ∉ params.drop (k + 1) ∧
      s.find? x = some ⟨x, args[k]?.getD .undefined, true⟩
  functions : ∀ x ∈ t.functionNames (t.bodyOf o), ∃ ref, s.find? x = some ⟨x, .function ref, true⟩

namespace Store

variable {e : Setting} {s : Store} {scope : ScopeId}

lemma lt_newScope (s : Store) (parent : Option ScopeId) :
    s.scopes.size < (s.newScope parent).1.scopes.size := by
  simp [newScope]

lemma bindings_newScope (s : Store) (parent : Option ScopeId) :
    ((s.newScope parent).1.scope s.scopes.size).bindings = [] := by
  rw [scope_newScope, if_pos rfl]
  rfl

/-- Binding parameters and hoisting make of a scope without bindings one that an activation starts
in. -/
lemma opens_hoist (hw : e.tree.WellFormed) (hs : scope < s.scopes.size)
    (empty : (s.scope scope).bindings = []) (o : NodeId) (params : List String)
    (args : List Value) :
    (((Machine.bindParams s scope params args).hoist e scope (e.tree.bodyOf o)).scope scope).Opens
      e.tree o params args := by
  have size := Nat.lt_of_lt_of_eq hs (SameScopes.bindParams s scope params args).size.symm
  have size' := Nat.lt_of_lt_of_eq size
    (SameScopes.declareVars _ scope (e.tree.varNames (e.tree.bodyOf o))).size.symm
  have start (x : String) : (s.scope scope).find? x = none := by
    rw [Scope.find?_eq_none_iff, Scope.names, empty]
    exact List.not_mem_nil
  have bound := find?_bindParams hs params args
  have unset := find?_declareVars size (e.tree.varNames (e.tree.bodyOf o))
  have hoisted := find?_hoistFunctions (e := e) size' (e.tree.bodyOf o)
  simp only [start] at bound
  rw [hoist]
  refine ⟨fun x => ?_, fun x hx other function => ?_, fun x hx function => ?_, fun x hx => ?_⟩
  · rw [Scope.mem_names_iff, ← hw.mem_varNames_bodyOf]
    rcases hoisted x with ⟨other, found⟩ | ⟨member, ref, found⟩
    · rw [found, unset]
      rcases bound x with ⟨none, found⟩ | ⟨k, place, -, found⟩
      · rw [found]
        by_cases declared : x ∈ e.tree.varNames (e.tree.bodyOf o) <;> simp [none, other, declared]
      · simp [found, List.mem_of_getElem? place]
    · simp [found, member]
  · rw [← hw.mem_varNames_bodyOf] at hx
    rcases hoisted x with ⟨-, found⟩ | ⟨member, -⟩
    · rcases bound x with ⟨-, none⟩ | ⟨k, place, -⟩
      · rw [found, unset, none, if_pos hx]
        rfl
      · exact absurd (List.mem_of_getElem? place) other
    · exact absurd member function
  · rcases hoisted x with ⟨-, found⟩ | ⟨member, -⟩
    · rcases bound x with ⟨none, -⟩ | ⟨k, place, last, given⟩
      · exact absurd hx none
      · refine ⟨k, place, last, ?_⟩
        rw [found, unset, given]
        rfl
    · exact absurd member function
  · rcases hoisted x with ⟨none, -⟩ | ⟨-, found⟩
    · exact absurd hx none
    · exact found

end Store

namespace Machine

variable {e : Setting} {m : Machine}

/-- A function with room on the call stack is entered in a new scope. -/
lemma enterFunction_opens (hw : e.tree.WellFormed) {f body : NodeId}
    (isFunction : (e.tree.kind f).functionBody? = some body)
    (room : m.calls.depth < m.calls.maxDepth) (name : Option String) (outer : ScopeId)
    (args : List Value) :
    ∃ m' : Machine,
      (∀ next, m.enterFunction e (e.closureOf f name body outer) args next = next m') ∧
      m'.scope = m.store.scopes.size ∧
      (m'.store.scope m'.scope).Opens e.tree f (e.closureOf f name body outer).params args := by
  set c := e.closureOf f name body outer with hc
  obtain ⟨calls, push, hcalls, -⟩ :=
    CallStack.push?_of_lt (c := m.calls) ⟨c.body, m.store.scopes.size, c.name⟩ room
  have scope : Machine.scope ⟨enteredStore e m.store c args, calls, m.output, m.control,
      m.pending⟩ = m.store.scopes.size := by
    rw [Machine.scope, CallStack.top?_eq_head?, hcalls]
    rfl
  refine ⟨⟨enteredStore e m.store c args, calls, m.output, m.control, m.pending⟩,
    fun next => ?_, scope, ?_⟩
  · simp only [enterFunction, enter, Store.newScope, push, enteredStore]
  · rw [scope]
    have opens := Store.opens_hoist hw (m.store.lt_newScope (some c.scope))
      (m.store.bindings_newScope _) f c.params args
    rw [Tree.bodyOf_of_functionBody isFunction] at opens
    exact opens

end Machine

namespace Interpreter

open Machine

variable {i : Interpreter}

lemma body_eq (hw : i.tree.WellFormed) : i.body = i.tree.bodyOf i.root := by
  obtain ⟨n, size, root⟩ := hw.root
  obtain ⟨body, kind⟩ := hw.program
  have last : i.root = i.tree.size - 1 := by rw [Interpreter.root, root, size]; rfl
  rw [Interpreter.body, programBody, Tree.bodyOf, last, kind]

/-- A program that has room for one activation starts in its scope with the declarations of its
statements bound in advance. -/
lemma startProgram_opens (hw : i.tree.WellFormed) (room : 0 < i.maxDepth) {scope : ScopeId}
    (inside : scope < i.store.scopes.size) (empty : (i.store.scope scope).bindings = [])
    (halt : Node → Bool) :
    (i.startProgram scope halt).scope = scope ∧
      ((i.startProgram scope halt).store.scope scope).Opens i.tree i.root [] [] := by
  obtain ⟨calls, hcalls, -, start⟩ := i.startProgram_of_room scope halt room
  have same : (i.startProgram scope halt).scope = scope ∧ (i.startProgram scope halt).store =
      i.store.hoist (i.setting halt) scope i.body := by
    have top : (calls.top?.map (·.scope)).getD globalScope = scope := by
      rw [CallStack.top?_eq_head?, hcalls]
      rfl
    rw [start]
    cases i.body <;> exact ⟨top, rfl⟩
  refine ⟨same.1, ?_⟩
  rw [same.2, body_eq hw]
  exact Store.opens_hoist (e := i.setting halt) hw inside empty i.root [] []

/-- A new activation, be it of a function with its arguments or of a program in a fresh scope, binds
in its scope exactly the parameters, the `var` declarators that belong to the function or program,
however deep in blocks, branches and loops, and the functions among its own statements. -/
theorem activation_opens {text : String} {options : ParseOptions} {t : Tree}
    (parsed : Tree.parse text options = .ok t) (tags : List NodeId) :
    (∀ (e : Setting) (m : Machine) (f body : NodeId) (name : Option String) (outer : ScopeId)
      (args : List Value), e.tree = tags.foldl Tree.tag t →
      (e.tree.kind f).functionBody? = some body → m.calls.depth < m.calls.maxDepth →
      ∃ m' : Machine,
        (∀ next, m.enterFunction e (e.closureOf f name body outer) args next = next m') ∧
        m'.scope = m.store.scopes.size ∧
        (m'.store.scope m'.scope).Opens e.tree f (e.closureOf f name body outer).params args) ∧
    ∀ (i : Interpreter) (halt : Node → Bool), i.tree = tags.foldl Tree.tag t → 0 < i.maxDepth →
      let m := i.newProgramScope.1.startProgram i.newProgramScope.2 halt
      m.scope = i.newProgramScope.2 ∧ (m.store.scope m.scope).Opens i.tree i.root [] [] := by
  have hw := (Tree.wellFormed_of_parse parsed).tags tags
  constructor
  · intro e m f body name outer args tree isFunction room
    exact enterFunction_opens (tree ▸ hw) isFunction room name outer args
  · intro i halt tree room m
    have opens := startProgram_opens (i := i.newProgramScope.1) (tree ▸ hw) room
      (i.store.lt_newScope (some globalScope)) (i.store.bindings_newScope _) halt
    rw [show m.scope = i.newProgramScope.2 from opens.1]
    exact ⟨rfl, opens.2⟩

/-- A variable of a loop body has no value when its function is entered, the parameter has its
argument, and the program binds the function. -/
theorem activation_opens_var_in_loop :
    ∃ (t : Tree) (i : Interpreter) (e : Setting) (m' : Machine) (ref : Ref),
      Tree.parse "function f(a) { while (a) { var b; } }" = .ok t ∧ i.tree = t ∧ 0 < i.maxDepth ∧
      e = i.setting (fun _ => false) ∧
      (t.kind 9).functionBody? = some 8 ∧ i.idle.calls.depth < i.idle.calls.maxDepth ∧
      (∀ next, i.idle.enterFunction e (e.closureOf 9 (some "f") 8 globalScope) [.bool true] next =
        next m') ∧
      (m'.store.scope m'.scope).find? "a" = some ⟨"a", .bool true, true⟩ ∧
      (m'.store.scope m'.scope).find? "b" = some ⟨"b", .undefined, true⟩ ∧
      ((i.newProgramScope.1.startProgram i.newProgramScope.2 fun _ => false).store.scope
        i.newProgramScope.2).find? "f" = some ⟨"f", .function ref, true⟩ := by
  let text := "function f(a) { while (a) { var b; } }"
  have facts : ((Tree.parse text).toOption.map fun t =>
      ((t.kind 9).functionBody?, (t.kind 9).functionParams.filterMap fun p => (t.kind p).name?,
        t.varNames (t.bodyOf 9), t.functionNames (t.bodyOf 9),
        t.functionNames (t.bodyOf (t.root.getD 0)))) =
      some (some 8, ["a"], ["b"], [], ["f"]) := by decide +kernel
  cases parsed : Tree.parse text with
  | error e => simp [parsed, Except.toOption] at facts
  | ok t =>
    rw [parsed] at facts
    obtain ⟨body, params, vars, inner, outer⟩ : (t.kind 9).functionBody? = some 8 ∧
        ((t.kind 9).functionParams.filterMap fun p => (t.kind p).name?) = ["a"] ∧
        t.varNames (t.bodyOf 9) = ["b"] ∧ t.functionNames (t.bodyOf 9) = [] ∧
        t.functionNames (t.bodyOf (t.root.getD 0)) = ["f"] := by
      simpa [Except.toOption] using facts
    let i : Interpreter := .ofTree t text false 1
    have opens := activation_opens parsed []
    let e := i.setting fun _ => false
    obtain ⟨m', entered, -, scope⟩ := opens.1 e i.idle 9 8 (some "f")
      globalScope [.bool true] rfl body Nat.zero_lt_one
    obtain ⟨first, program⟩ := opens.2 i (fun _ => false) rfl Nat.zero_lt_one
    have declared : ∃ d, t.DeclaresVar d "b" ∧ t.owner d = 9 := by
      rw [← (Tree.wellFormed_of_parse parsed).mem_varNames_bodyOf, vars]
      exact List.mem_singleton_self "b"
    have names : (e.closureOf 9 (some "f") 8 globalScope).params = ["a"] :=
      params
    have noFunction (x : String) : x ∉ t.functionNames (t.bodyOf 9) := by simp [inner]
    rw [names] at scope
    obtain ⟨k, place, -, given⟩ := scope.given "a" (List.mem_singleton_self "a") (noFunction "a")
    obtain rfl : k = 0 := by
      have := (List.getElem?_eq_some_iff.mp place).1
      simpa using this
    obtain ⟨ref, function⟩ := program.functions "f" (by
      show "f" ∈ t.functionNames (t.bodyOf (t.root.getD 0))
      rw [outer]
      exact List.mem_singleton_self "f")
    rw [first] at function
    exact ⟨t, i, e, m', ref, rfl, rfl, Nat.zero_lt_one, rfl, body, Nat.zero_lt_one, entered, given,
      scope.unset "b" declared (by simp) (noFunction "b"), function⟩

end Interpreter

end ScriptDebugger
