import Mathlib.Logic.Relation
import ScriptDebugger.Proofs.Value.Bindings

/-!
# Trees of scopes as nested maps

`ScopeOperation` is what may be done to a tree of scopes, and `Store.Reached`
says to which stores any number of operations on the scopes there are lead.
`Store.NestedMaps` is what holds of these stores: a scope is a map that keeps
the order of its first definitions, a name means what the nearest scope that
binds it says (`Store.Nearest`), and a definition or an assignment changes one
binding or none. `nestedMaps_of_reached` says so of every store that is reached.
-/

namespace ScriptDebugger

/-- What may be done to a tree of scopes. -/
inductive ScopeOperation where
  | root
  | child (parent : ScopeId)
  | define (scope : ScopeId) (name : String) (value : Value) (isMutable : Bool)
  | assign (scope : ScopeId) (name : String) (value : Value)
  | lookup (scope : ScopeId) (name : String)

namespace ScopeOperation

/-- The scope that an operation starts from. -/
def scope? : ScopeOperation → Option ScopeId
  | root => none
  | child id | define id _ _ _ | assign id _ _ | lookup id _ => some id

/-- The name that an operation defines in the scope `id`. -/
def defined? (id : ScopeId) : ScopeOperation → Option String
  | define scope name _ _ => if scope = id then some name else none
  | _ => none

end ScopeOperation

namespace Store

def perform (s : Store) : ScopeOperation → Store
  | .root => (s.newScope none).1
  | .child parent => (s.newScope (some parent)).1
  | .define id name value isMutable => s.define id name value isMutable
  | .assign id name value => (s.assignNearest id name value).1
  | .lookup _ _ => s

/-- The stores to which operations lead that start from scopes there are. -/
inductive Reached : List ScopeOperation → Store → Prop
  | start : Reached [] .empty
  | next {ops : List ScopeOperation} {s : Store} (h : Reached ops s) (op : ScopeOperation)
    (known : ∀ id ∈ op.scope?, id < s.scopes.size) : Reached (ops ++ [op]) (s.perform op)

/-- The second scope is the first one or around it. -/
def Outward (s : Store) : ScopeId → ScopeId → Prop :=
  Relation.ReflTransGen fun id parent => (s.scope id).parent = some parent

/-- The nearest scope that binds `name`, on the way from a scope outward. -/
inductive Nearest (s : Store) (name : String) : ScopeId → ScopeId → Prop
  | here {id : ScopeId} (bound : name ∈ (s.scope id).names) : Nearest s name id id
  | outward {id parent owner : ScopeId} (free : name ∉ (s.scope id).names)
    (outer : (s.scope id).parent = some parent) (rest : Nearest s name parent owner) :
    Nearest s name id owner

/-- The second store has `bs` for the bindings of one scope and differs in nothing else. -/
structure Rebound (s : Store) (id : ScopeId) (bs : List Binding) (s' : Store) : Prop
    extends s.OnlyIn id s' where
  bindings : (s'.scope id).bindings = bs
  parent : (s'.scope id).parent = (s.scope id).parent
  rest : s' = { s with scopes := s'.scopes }

/-- What an assignment comes to, with the store that it leaves. -/
inductive Assigned (s : Store) (id : ScopeId) (name : String) (v : Value) :
    Store × Option AssignFault → Prop
  | done {s' : Store} {owner : ScopeId} {slot : Nat} {b : Binding}
    (nearest : s.Nearest name id owner) (at_ : (s.scope owner).bindings[slot]? = some b)
    (own : b.name = name) (assignable : b.isMutable = true)
    (changed : s.Rebound owner ((s.scope owner).bindings.set slot { b with value := v }) s') :
    Assigned s id name v (s', none)
  | constant {owner : ScopeId} {b : Binding} (nearest : s.Nearest name id owner)
    (bound : b ∈ (s.scope owner).bindings) (own : b.name = name) (fixed : b.isMutable = false) :
    Assigned s id name v (s, some .constant)
  | unbound (free : ∀ i, s.Outward id i → name ∉ (s.scope i).names) :
    Assigned s id name v (s, some .unbound)

/-- What holds of a store after the operations `ops`. -/
structure NestedMaps (ops : List ScopeOperation) (s : Store) : Prop where
  unique : ∀ id, (s.scope id).names.Nodup
  ordered : ∀ id, (s.scope id).names = (ops.filterMap (·.defined? id)).eraseDups
  indexed : ∀ id name slot,
    (s.scope id).index.lookup name = some slot ↔ (s.scope id).names[slot]? = some name
  child : ∀ parent < s.scopes.size, (s.newScope (some parent)).2 = s.scopes.size ∧
    ∀ id, (s.newScope (some parent)).1.scope id =
      if id = s.scopes.size then .empty (some parent) else s.scope id
  lookup_some : ∀ id name v, s.lookup? id name = some v ↔
    ∃ owner b, s.Nearest name id owner ∧ b ∈ (s.scope owner).bindings ∧ b.name = name ∧ b.value = v
  lookup_none : ∀ id name, s.lookup? id name = none ↔
    ∀ i, s.Outward id i → name ∉ (s.scope i).names
  define : ∀ id < s.scopes.size, ∀ name v isMutable, ∃ bs,
    s.Rebound id bs (s.define id name v isMutable) ∧
      ((∃ slot, (s.scope id).names[slot]? = some name ∧
          bs = (s.scope id).bindings.set slot ⟨name, v, isMutable⟩) ∨
        name ∉ (s.scope id).names ∧ bs = (s.scope id).bindings ++ [⟨name, v, isMutable⟩])
  assign : ∀ id name v, s.Assigned id name v (s.assignNearest id name v)

lemma binder?_of_bound {s : Store} {id : Nat} {name : String} (bound : name ∈ (s.scope id).names) :
    s.binder? id name = some id := by
  have first (rest : List ScopeId) :
      (id :: rest).find? (fun i => (s.scope i).binds name) = some id :=
    List.find?_cons_of_pos (((s.scope id).binds_iff name).mpr bound)
  rw [binder?, chain, chainFrom]
  split <;> exact first _

section Chain

variable {s : Store} (older : s.Older)
include older

lemma binder?_of_free {id : Nat} {name : String} (free : name ∉ (s.scope id).names) :
    s.binder? id name = (s.scope id).parent.bind fun parent => s.binder? parent name := by
  have skip (rest : List ScopeId) : (id :: rest).find? (fun i => (s.scope i).binds name) =
      rest.find? fun i => (s.scope i).binds name :=
    List.find?_cons_of_neg (mt ((s.scope id).binds_iff name).mp free)
  cases outer : (s.scope id).parent with
  | none =>
    rw [binder?, chain_of_none outer, skip]
    rfl
  | some parent =>
    rw [binder?, chain_of_some older outer, skip]
    rfl

lemma binder?_eq_some_iff_nearest {id owner : Nat} {name : String} :
    s.binder? id name = some owner ↔ s.Nearest name id owner := by
  constructor
  · intro found
    -- Parents are older, so the way outward ends.
    induction id using Nat.strongRecOn with
    | _ id ih =>
      by_cases bound : name ∈ (s.scope id).names
      · rw [binder?_of_bound bound, Option.some.injEq] at found
        exact found ▸ .here bound
      · rw [binder?_of_free older bound] at found
        obtain ⟨parent, outer, found⟩ := Option.bind_eq_some_iff.mp found
        exact .outward bound outer (ih parent (older id parent outer) found)
  · intro nearest
    induction nearest with
    | here bound => exact binder?_of_bound bound
    | outward free outer _ ih =>
      rw [binder?_of_free older free, outer]
      exact ih

lemma binder?_eq_none_iff {id : Nat} {name : String} :
    s.binder? id name = none ↔ ∀ i, s.Outward id i → name ∉ (s.scope i).names := by
  constructor
  · intro missing i outward bound
    induction outward using Relation.ReflTransGen.head_induction_on with
    | refl =>
      rw [binder?_of_bound bound] at missing
      cases missing
    | @head id parent outer _ ih =>
      have free : name ∉ (s.scope id).names := fun bound => by
        rw [binder?_of_bound bound] at missing
        cases missing
      rw [binder?_of_free older free, outer] at missing
      exact ih missing
  · intro free
    cases found : s.binder? id name with
    | none => rfl
    | some owner =>
      rw [binder?_eq_some_iff_nearest older] at found
      exfalso
      induction found with
      | here bound => exact free _ .refl bound
      | outward _ outer _ ih => exact ih fun i outward => free i (.head outer outward)

end Chain

lemma Nearest.bound {s : Store} {name : String} {id owner : ScopeId}
    (h : s.Nearest name id owner) : name ∈ (s.scope owner).names := by
  induction h with
  | here bound => exact bound
  | outward _ _ _ ih => exact ih

/-- A scope that binds a name is there. -/
lemma lt_of_mem_names {s : Store} {id : ScopeId} {name : String}
    (bound : name ∈ (s.scope id).names) : id < s.scopes.size := by
  by_contra outside
  rw [scope_of_size_le (Nat.le_of_not_lt outside)] at bound
  cases bound

section Changes

variable (s : Store) {id : ScopeId}

lemma rebound_define (inside : id < s.scopes.size) (name : String) (v : Value)
    (isMutable : Bool) :
    s.Rebound id ((s.scope id).define ⟨name, v, isMutable⟩).bindings
      (s.define id name v isMutable) where
  toOnlyIn := .define s name v isMutable
  bindings := by rw [scope_define_eq, if_pos ⟨rfl, inside⟩]
  parent := scope_define s id name v isMutable id
  rest := rfl

/-- What is bound already is bound in the slot of its name. -/
lemma rebound_define_of_slot {name : String} {slot : Nat}
    (found : (s.scope id).slot? name = some slot) (v : Value) (isMutable : Bool) :
    s.Rebound id ((s.scope id).bindings.set slot ⟨name, v, isMutable⟩)
      (s.define id name v isMutable) := by
  have bound := List.mem_of_getElem? (((s.scope id).slot?_iff name slot).mp found)
  have changed := s.rebound_define (lt_of_mem_names bound) name v isMutable
  rwa [(Scope.define_of_slot (by exact found)).1] at changed

lemma rebound_define_of_free {name : String} (inside : id < s.scopes.size)
    (free : name ∉ (s.scope id).names) (v : Value) (isMutable : Bool) :
    s.Rebound id ((s.scope id).bindings ++ [⟨name, v, isMutable⟩])
      (s.define id name v isMutable) := by
  have changed := s.rebound_define inside name v isMutable
  have missing := ((s.scope id).slot?_eq_none_iff name).mpr free
  rwa [(Scope.define_of_free (by exact missing)).1] at changed

lemma assigned_assignNearest (older : s.Older) (id : ScopeId) (name : String) (v : Value) :
    s.Assigned id name v (s.assignNearest id name v) := by
  rw [assignNearest_eq, assignTarget]
  cases found : s.binder? id name with
  | none => exact .unbound ((binder?_eq_none_iff older).mp found)
  | some owner =>
    have nearest := (binder?_eq_some_iff_nearest older).mp found
    obtain ⟨slot, at_⟩ := List.mem_iff_getElem?.mp nearest.bound
    obtain ⟨b, here, own⟩ : ∃ b, (s.scope owner).bindings[slot]? = some b ∧ b.name = name := by
      rwa [Scope.names, List.getElem?_map, Option.map_eq_some_iff] at at_
    have slot_ := ((s.scope owner).slot?_iff name slot).mpr at_
    have bound : (s.scope owner).find? name = some b :=
      ((s.scope owner).find?_eq_some_iff name b).mpr ⟨List.mem_of_getElem? here, own⟩
    simp only [bound, Option.any_some]
    cases assignable : b.isMutable with
    | false => exact .constant nearest (List.mem_of_getElem? here) own assignable
    | true =>
      have changed := s.rebound_define_of_slot slot_ v true
      rw [← own, ← assignable] at changed
      subst own
      exact .done nearest here rfl assignable (by simpa [assignable] using changed)

end Changes

section Runs

variable {ops : List ScopeOperation} {s : Store}

lemma Reached.made (h : Reached ops s) : s.Made := by
  induction h with
  | start => exact .empty
  | @next ops s _ op known ih =>
    cases op with
    | root => exact ih.newRoot
    | child parent => exact ih.newScope (known parent rfl)
    | define id name v isMutable => exact ih.define id name v isMutable
    | assign id name v => exact ih.assignNearest id name v
    | lookup id name => exact ih

/-- An operation adds a name to a scope only by defining it there, behind the others. -/
lemma names_perform (older : s.Older) {op : ScopeOperation}
    (known : ∀ id ∈ op.scope?, id < s.scopes.size) (id : ScopeId) :
    ((s.perform op).scope id).names =
      match op.defined? id with
      | some name =>
        if name ∈ (s.scope id).names then (s.scope id).names else (s.scope id).names ++ [name]
      | none => (s.scope id).names := by
  have names_newScope (parent : Option ScopeId) :
      ((s.newScope parent).1.scope id).names = (s.scope id).names := by
    rw [scope_newScope]
    split
    case isTrue new =>
      rw [scope_of_size_le (Nat.le_of_eq new.symm)]
      rfl
    case isFalse => rfl
  cases op with
  | root => exact names_newScope none
  | child parent => exact names_newScope (some parent)
  | define scope name v isMutable =>
    have inside : scope < s.scopes.size := known scope rfl
    simp only [perform, ScopeOperation.defined?, scope_define_eq]
    by_cases here : scope = id
    · rw [if_pos here, if_pos ⟨here, here ▸ inside⟩]
      exact Scope.names_define _ _
    · rw [if_neg here, if_neg fun both => here both.1]
  | assign scope name v =>
    have assigned := s.assigned_assignNearest older scope name v
    simp only [perform, ScopeOperation.defined?]
    generalize s.assignNearest scope name v = outcome at assigned
    cases assigned with
    | constant | unbound => rfl
    | @done s' owner slot b _ at_ own _ changed =>
      by_cases here : id = owner
      · subst here
        rw [Scope.names, changed.bindings]
        refine Scope.map_name_set _ _ ?_
        rw [Scope.names, List.getElem?_map, at_]
        rfl
      · rw [changed.others id here]
  | lookup scope name => rfl

lemma eraseDups_concat (names : List String) (name : String) :
    (names ++ [name]).eraseDups =
      if name ∈ names.eraseDups then names.eraseDups else names.eraseDups ++ [name] := by
  rw [List.eraseDups_append]
  by_cases known : name ∈ names
  · rw [if_pos (List.mem_eraseDups.mpr known)]
    simp [List.removeAll, known]
  · rw [if_neg (mt List.mem_eraseDups.mp known)]
    simp [List.removeAll, known, List.eraseDups_cons]

/-- The names of a scope are those that the operations define there, each where it comes first. -/
lemma Reached.names (h : Reached ops s) (id : ScopeId) :
    (s.scope id).names = (ops.filterMap (·.defined? id)).eraseDups := by
  induction h with
  | start => rfl
  | @next ops s h op known ih =>
    rw [names_perform h.made.older known, List.filterMap_append, ih]
    cases defined : op.defined? id with
    | none => simp [defined]
    | some name => simp [defined, eraseDups_concat]

lemma lookup?_eq_some_iff (older : s.Older) (id : ScopeId) (name : String) (v : Value) :
    s.lookup? id name = some v ↔ ∃ owner b, s.Nearest name id owner ∧
      b ∈ (s.scope owner).bindings ∧ b.name = name ∧ b.value = v := by
  simp only [lookup?, Option.bind_eq_bind, Option.bind_eq_some_iff, Option.pure_def,
    Option.some.injEq, binder?_eq_some_iff_nearest older, Scope.find?_eq_some_iff]
  constructor
  · rintro ⟨owner, nearest, b, ⟨bound, own⟩, value⟩
    exact ⟨owner, b, nearest, bound, own, value⟩
  · rintro ⟨owner, b, nearest, bound, own, value⟩
    exact ⟨owner, nearest, b, ⟨bound, own⟩, value⟩

lemma lookup?_eq_none_iff (older : s.Older) (id : ScopeId) (name : String) :
    s.lookup? id name = none ↔ ∀ i, s.Outward id i → name ∉ (s.scope i).names := by
  rw [← binder?_eq_none_iff older]
  constructor
  · intro missing
    cases found : s.binder? id name with
    | none => rfl
    | some owner =>
      have nearest := (binder?_eq_some_iff_nearest older).mp found
      obtain ⟨b, bound, own⟩ := List.mem_map.mp nearest.bound
      have value := (lookup?_eq_some_iff older id name b.value).mpr
        ⟨owner, b, nearest, bound, own, rfl⟩
      rw [missing] at value
      cases value
  · intro missing
    rw [lookup?, missing]
    rfl

theorem nestedMaps_of_reached (h : Reached ops s) : s.NestedMaps ops where
  unique := fun id => (s.scope id).nodup_names
  ordered := h.names
  indexed := fun id name slot => (s.scope id).slot?_iff name slot
  child := fun parent _ => ⟨rfl, fun id => scope_newScope s (some parent) id⟩
  lookup_some := lookup?_eq_some_iff h.made.older
  lookup_none := lookup?_eq_none_iff h.made.older
  define := fun id inside name v isMutable => by
    cases found : (s.scope id).slot? name with
    | none =>
      have free := ((s.scope id).slot?_eq_none_iff name).mp found
      exact ⟨_, s.rebound_define_of_free inside free v isMutable, .inr ⟨free, rfl⟩⟩
    | some slot =>
      have at_ := ((s.scope id).slot?_iff name slot).mp found
      exact ⟨_, s.rebound_define_of_slot found v isMutable, .inl ⟨slot, at_, rfl⟩⟩
  assign := s.assigned_assignNearest h.made.older

end Runs

/-- Two scopes inside one. The first binds a name anew and cannot assign to a constant, the second
assigns outside of itself. -/
def siblings : List ScopeOperation :=
  [.root, .child 0, .child 0, .define 0 "x" (.bool true) true, .define 0 "k" .null false,
    .define 1 "x" (.bool false) true, .assign 2 "x" .null, .assign 1 "k" .null,
    .define 0 "x" (.string "again") true, .lookup 2 "x"]

def siblingScopes : Store := siblings.foldl perform .empty

theorem nestedMaps_siblings :
    Reached siblings siblingScopes ∧ siblingScopes.NestedMaps siblings ∧
      (siblingScopes.scope 0).names = ["x", "k"] ∧
      siblingScopes.lookup? 1 "x" = some (.bool false) ∧
      siblingScopes.lookup? 2 "x" = some (.string "again") ∧
      (siblingScopes.assignNearest 1 "k" .null).2 = some .constant ∧
      (siblingScopes.assignNearest 2 "y" .null).2 = some .unbound := by
  have scopes := ((Reached.start.next .root (by decide)).next (.child 0) (by decide)).next
    (.child 0) (by decide)
  have outer := (scopes.next (.define 0 "x" (.bool true) true) (by decide)).next
    (.define 0 "k" .null false) (by decide)
  have inner := ((outer.next (.define 1 "x" (.bool false) true) (by decide)).next
    (.assign 2 "x" .null) (by decide)).next (.assign 1 "k" .null) (by decide)
  have reached := (inner.next (.define 0 "x" (.string "again") true) (by decide)).next
    (.lookup 2 "x") (by decide)
  exact ⟨reached, nestedMaps_of_reached reached, by decide, rfl, rfl, rfl, rfl⟩

end Store

end ScriptDebugger
