import Mathlib.Data.List.Nodup
import ScriptDebugger.Proofs.Value.Chain

/-!
# What the scopes of a chain bind

A scope binds each name once, in the order in which the names were first
defined. `Store.Made` are the stores that come about by new scopes and
definitions, and `Store.Path` are the scopes on the way from a scope out to
another one around it. On such a way the first scope that binds a name is the
one that a lookup finds.
-/

namespace ScriptDebugger

namespace Scope

/-- The names that a scope binds, in the order of its bindings. -/
def names (s : Scope) : List String := s.bindings.map (·.name)

variable (s : Scope)

lemma slot?_iff (name : String) (slot : Nat) :
    s.slot? name = some slot ↔ s.names[slot]? = some name := by
  rw [names, List.getElem?_map]
  exact s.indexed name slot

/-- A name has one slot, so no name is bound twice. -/
lemma nodup_names : s.names.Nodup := by
  rw [List.nodup_iff_getElem?_ne_getElem?]
  intro i j before inside same
  obtain ⟨name, at_⟩ : ∃ name, s.names[j]? = some name := ⟨_, List.getElem?_eq_getElem inside⟩
  have first := (s.slot?_iff name i).mpr (same.trans at_)
  have second := (s.slot?_iff name j).mpr at_
  rw [first, Option.some.injEq] at second
  exact absurd second (Nat.ne_of_lt before)

lemma binds_iff (name : String) : s.binds name = true ↔ name ∈ s.names := by
  rw [binds, Option.isSome_iff_exists, List.mem_iff_getElem?]
  exact exists_congr fun slot => s.slot?_iff name slot

lemma slot?_eq_none_iff (name : String) : s.slot? name = none ↔ name ∉ s.names := by
  rw [← s.binds_iff, binds, Bool.not_eq_true, Option.isSome_eq_false_iff, Option.isNone_iff_eq_none]

/-- What is found under a name is the one binding of that name. -/
lemma find?_eq_some_iff (name : String) (b : Binding) :
    s.find? name = some b ↔ b ∈ s.bindings ∧ b.name = name := by
  rw [find?, Option.bind_eq_bind, Option.bind_eq_some_iff]
  constructor
  · rintro ⟨slot, found, at_⟩
    have own := (s.indexed name slot).mp found
    rw [at_] at own
    exact ⟨List.mem_of_getElem? at_, Option.some.inj own⟩
  · rintro ⟨mem, rfl⟩
    obtain ⟨slot, at_⟩ := List.mem_iff_getElem?.mp mem
    exact ⟨slot, (s.indexed b.name slot).mpr (by rw [at_]; rfl), at_⟩

lemma mem_names_iff (name : String) : name ∈ s.names ↔ ∃ b, s.find? name = some b := by
  simp only [names, List.mem_map, find?_eq_some_iff]

lemma find?_eq_none_iff (name : String) : s.find? name = none ↔ name ∉ s.names := by
  rw [mem_names_iff, Option.eq_none_iff_forall_ne_some, not_exists]

variable {s} {b : Binding}

lemma lt_of_slot? {name : String} {slot : Nat} (found : s.slot? name = some slot) :
    slot < s.bindings.length := by
  obtain ⟨inside, -⟩ := List.getElem?_eq_some_iff.mp ((s.slot?_iff name slot).mp found)
  exact Nat.lt_of_lt_of_eq inside (List.length_map _)

lemma define_of_slot {slot : Nat} (found : s.slot? b.name = some slot) :
    (s.define b).bindings = s.bindings.set slot b ∧ (s.define b).index = s.index := by
  rw [define]
  split
  case h_1 slot' found' =>
    obtain rfl : slot' = slot := Option.some.inj (found'.symm.trans found)
    exact ⟨rfl, rfl⟩
  case h_2 free =>
    rw [found] at free
    cases free

lemma define_of_free (free : s.slot? b.name = none) :
    (s.define b).bindings = s.bindings ++ [b] ∧
      (s.define b).index = (b.name, s.bindings.length) :: s.index := by
  rw [define]
  split
  case h_1 slot found =>
    rw [free] at found
    cases found
  case h_2 => exact ⟨rfl, rfl⟩

variable (s b)

lemma slot?_define (name : String) :
    (s.define b).slot? name =
      if b.name = name ∧ s.slot? name = none then some s.bindings.length else s.slot? name := by
  cases found : s.slot? b.name with
  | none =>
    rw [slot?, (define_of_free found).2, List.lookup_cons]
    by_cases own : b.name = name
    · subst own
      rw [if_pos ⟨rfl, found⟩, beq_self_eq_true]
    · rw [if_neg fun h => own h.1, beq_false_of_ne (Ne.symm own), slot?]
  | some slot =>
    rw [slot?, (define_of_slot found).2, ← slot?, if_neg]
    rintro ⟨rfl, free⟩
    rw [found] at free
    cases free

/-- The binding of another name stays in its slot. -/
lemma getElem?_define {name : String} {slot : Nat} (other : b.name ≠ name)
    (found : s.slot? name = some slot) : (s.define b).bindings[slot]? = s.bindings[slot]? := by
  cases own : s.slot? b.name with
  | none => rw [(define_of_free own).1, List.getElem?_append_left (lt_of_slot? found)]
  | some slot' =>
    rw [(define_of_slot own).1, List.getElem?_set_ne]
    rintro rfl
    have same := ((s.slot?_iff _ _).mp own).symm.trans ((s.slot?_iff _ _).mp found)
    exact other (Option.some.inj same)

/-- A definition is found under its name, and nothing else changes. -/
lemma find?_define (name : String) :
    (s.define b).find? name = if b.name = name then some b else s.find? name := by
  rw [find?, find?, slot?_define]
  by_cases own : b.name = name
  · subst own
    rw [if_pos rfl]
    cases found : s.slot? b.name with
    | none =>
      rw [if_pos ⟨rfl, rfl⟩, (define_of_free found).1]
      simp
    | some slot =>
      rw [if_neg (by simp), (define_of_slot found).1]
      simp [lt_of_slot? found]
  · rw [if_neg own, if_neg fun h => own h.1]
    cases found : s.slot? name with
    | none => rfl
    | some slot => exact s.getElem?_define b own found

/-- In the slot of its name a binding changes no name. -/
lemma map_name_set {slot : Nat} (at_ : s.names[slot]? = some b.name) :
    (s.bindings.set slot b).map (·.name) = s.names := by
  obtain ⟨inside, own⟩ := List.getElem?_eq_some_iff.mp at_
  rw [List.map_set, ← own]
  exact List.set_getElem_self inside

/-- A new name comes last; a name that is defined again keeps its place. -/
lemma names_define :
    (s.define b).names = if b.name ∈ s.names then s.names else s.names ++ [b.name] := by
  cases found : s.slot? b.name with
  | none =>
    rw [if_neg ((s.slot?_eq_none_iff _).mp found), names, (define_of_free found).1, List.map_append]
    rfl
  | some slot =>
    have at_ := (s.slot?_iff b.name slot).mp found
    rw [if_pos (List.mem_of_getElem? at_), names, (define_of_slot found).1, map_name_set s b at_]

end Scope

namespace Store

lemma scope_define_eq (s : Store) (id : ScopeId) (name : String) (v : Value) (isMutable : Bool)
    (i : ScopeId) :
    (s.define id name v isMutable).scope i =
      if id = i ∧ i < s.scopes.size then (s.scope i).define ⟨name, v, isMutable⟩
      else s.scope i := by
  simp only [scope, define, Array.getElem?_modify]
  by_cases inside : i < s.scopes.size
  · by_cases here : id = i <;> simp [here, inside]
  · simp [inside]

lemma scope_newScope (s : Store) (parent : Option ScopeId) (i : ScopeId) :
    (s.newScope parent).1.scope i = if i = s.scopes.size then .empty parent else s.scope i := by
  simp only [newScope, scope, Array.getElem?_push]
  split <;> rfl

/-- The same scopes, but for one. -/
structure OnlyIn (scope : ScopeId) (s s' : Store) : Prop where
  size : s'.scopes.size = s.scopes.size
  others : ∀ id : Nat, id ≠ scope → s'.scope id = s.scope id

namespace OnlyIn

variable {scope : ScopeId}

lemma refl (s : Store) : s.OnlyIn scope s := ⟨rfl, fun _ _ => rfl⟩

lemma trans {s s' s'' : Store} (h : s.OnlyIn scope s') (h' : s'.OnlyIn scope s'') :
    s.OnlyIn scope s'' :=
  ⟨h'.size.trans h.size, fun id hid => (h'.others id hid).trans (h.others id hid)⟩

lemma define (s : Store) (name : String) (v : Value) (isMutable : Bool) :
    s.OnlyIn scope (s.define scope name v isMutable) where
  size := Array.size_modify
  others := fun id hid => by
    rw [scope_define_eq, if_neg fun here => hid here.1.symm]

end OnlyIn

/-- Along any scopes, the first one that binds the name decides. -/
lemma assignAlong_eq (s : Store) (name : String) (v : Value) (ids : List ScopeId) :
    s.assignAlong name v ids =
      match ids.find? fun i => (s.scope i).binds name with
      | none => (s, some .unbound)
      | some owner =>
        if ((s.scope owner).find? name).any (·.isMutable) then (s.define owner name v true, none)
        else (s, some .constant) := by
  induction ids with
  | nil => rfl
  | cons id outer ih =>
    rw [assignAlong]
    cases found : (s.scope id).find? name with
    | none =>
      have free : ¬ (s.scope id).binds name = true := by
        rwa [Scope.binds_iff, ← Scope.find?_eq_none_iff]
      rw [List.find?_cons_of_neg (by exact free)]
      exact ih
    | some b =>
      have bound : (s.scope id).binds name = true := by
        rw [Scope.binds_iff, Scope.mem_names_iff]
        exact ⟨b, found⟩
      rw [List.find?_cons_of_pos (by exact bound)]
      simp [found]

/-- An assignment is a definition where it has a target, and without one nothing. -/
lemma assignNearest_eq (s : Store) (id : ScopeId) (name : String) (v : Value) :
    s.assignNearest id name v =
      match s.assignTarget id name with
      | .ok owner => (s.define owner name v true, none)
      | .error fault => (s, some fault) := by
  rw [assignNearest, assignAlong_eq, assignTarget, binder?]
  cases (s.chain id).find? fun i => (s.scope i).binds name with
  | none => rfl
  | some owner =>
    dsimp only
    split <;> rfl

/-- Stores that come about by new scopes, definitions and changes outside of all scopes. -/
inductive Made : Store → Prop
  | empty : Made .empty
  | newRoot {s : Store} (h : Made s) : Made (s.newScope none).1
  | newScope {s : Store} (h : Made s) {parent : ScopeId} (hp : parent < s.scopes.size) :
    Made (s.newScope (some parent)).1
  | define {s : Store} (h : Made s) (id : ScopeId) (name : String) (v : Value)
    (isMutable : Bool) : Made (s.define id name v isMutable)
  | elsewhere {s s' : Store} (h : Made s) (same : s'.scopes = s.scopes) : Made s'

namespace Made

variable {s : Store}

lemma assignNearest (h : s.Made) (id : ScopeId) (name : String) (v : Value) :
    (s.assignNearest id name v).1.Made := by
  rw [assignNearest_eq]
  split
  case h_1 owner _ => exact h.define owner name v true
  case h_2 => exact h

lemma older (h : s.Made) : s.Older := by
  induction h with
  | empty => intro id p hp; simp [Store.scope, Store.empty, Scope.empty] at hp
  | @newRoot s _ ih =>
    intro id p hp
    rw [scope_newScope] at hp
    split at hp
    · cases hp
    · exact ih id p hp
  | newScope _ hp ih => exact ih.newScope hp
  | define _ id name v isMutable ih => exact ih.define id name v isMutable
  | elsewhere _ same ih =>
    intro id p hp
    rw [Store.scope, same] at hp
    exact ih id p hp

end Made

lemma mem_chain_le {s : Store} (h : s.Older) {id i : Nat} (hi : i ∈ s.chain id) : i ≤ id := by
  induction id using Nat.strongRecOn with
  | _ id ih =>
    cases hp : (s.scope id).parent with
    | none =>
      rw [chain_of_none hp, List.mem_singleton] at hi
      exact Nat.le_of_eq hi
    | some p =>
      have lt : p < id := h id p hp
      rw [chain_of_some h hp, List.mem_cons] at hi
      rcases hi with rfl | hi
      · exact Nat.le_refl i
      · exact Nat.le_trans (ih p lt hi) (Nat.le_of_lt lt)

/-- No scope is met twice on the way outward. -/
lemma nodup_chain {s : Store} (h : s.Older) (id : Nat) : (s.chain id).Nodup := by
  induction id using Nat.strongRecOn with
  | _ id ih =>
    cases hp : (s.scope id).parent with
    | none =>
      rw [chain_of_none hp]
      exact List.nodup_singleton id
    | some p =>
      have lt : p < id := h id p hp
      rw [chain_of_some h hp]
      exact List.nodup_cons.mpr ⟨fun hm => Nat.not_le_of_lt lt (mem_chain_le h hm), ih p lt⟩

/-- A scope on the chain that binds a name is the first to do so exactly if none before it does. -/
lemma binder?_eq_some {s : Store} (h : s.Older) {scope id : ScopeId} {name : String}
    {before after : List ScopeId} (chain : s.chain scope = before ++ id :: after)
    (binds : name ∈ (s.scope id).names) :
    s.binder? scope name = some id ↔ ∀ i ∈ before, name ∉ (s.scope i).names := by
  have nodup := s.nodup_chain h scope
  have binds := (Scope.binds_iff _ name).mpr binds
  rw [chain] at nodup
  rw [binder?, chain, List.find?_append]
  cases found : before.find? fun i => (s.scope i).binds name with
  | none =>
    have none (i : ScopeId) (hi : i ∈ before) : name ∉ (s.scope i).names := by
      rw [← Scope.binds_iff]
      exact List.find?_eq_none.mp found i hi
    have here : (id :: after).find? (fun i => (s.scope i).binds name) = some id :=
      List.find?_cons_of_pos binds
    rw [here]
    exact ⟨fun _ => none, fun _ => rfl⟩
  | some i =>
    have hi := List.mem_of_find?_eq_some found
    have bound : (s.scope i).binds name = true := by simpa using List.find?_some found
    rw [Scope.binds_iff] at bound
    constructor
    · intro same
      obtain rfl : i = id := Option.some.inj same
      exact absurd rfl ((List.nodup_append.mp nodup).2.2 i hi i List.mem_cons_self)
    · intro none
      exact absurd bound (none i hi)

/-- The scopes on the way from a scope outward, short of `root`; the way ends there. -/
inductive Path (s : Store) (root : ScopeId) : ScopeId → List ScopeId → Prop
  | here : Path s root root []
  | outward {id p : ScopeId} {ids : List ScopeId} (inner : id ≠ root)
    (parent : (s.scope id).parent = some p) (rest : Path s root p ids) :
    Path s root id (id :: ids)

namespace Path

variable {s : Store} {root scope : ScopeId} {ids : List ScopeId}

lemma ne_root (h : s.Path root scope ids) {id : ScopeId} (hid : id ∈ ids) : id ≠ root := by
  induction h with
  | here => cases hid
  | outward inner parent rest ih =>
    rcases List.mem_cons.mp hid with rfl | hid
    · exact inner
    · exact ih hid

lemma chain (h : s.Path root scope ids) (older : s.Older) :
    s.chain scope = ids ++ s.chain root := by
  induction h with
  | here => rfl
  | outward inner parent rest ih => rw [chain_of_some older parent, ih, List.cons_append]

lemma takeWhile_chain (h : s.Path root scope ids) (older : s.Older) :
    (s.chain scope).takeWhile (· ≠ root) = ids := by
  have first : ∃ rest, s.chain root = root :: rest := by
    cases hp : (s.scope root).parent with
    | none => exact ⟨[], chain_of_none hp⟩
    | some p => exact ⟨s.chain p, chain_of_some older hp⟩
  obtain ⟨rest, first⟩ := first
  have all : ∀ id ∈ ids, decide (id ≠ root) = true := fun id hid => by simp [h.ne_root hid]
  rw [h.chain older, first, List.takeWhile_append_of_pos all, List.takeWhile_cons_of_neg (by simp),
    List.append_nil]

end Path

end Store

end ScriptDebugger
