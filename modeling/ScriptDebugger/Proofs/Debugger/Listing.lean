import ScriptDebugger.Debugger.View
import ScriptDebugger.Proofs.Value.ArrayText
import ScriptDebugger.Proofs.Value.Bindings

/-!
# The variable list of a scope

The list shows, from the scope outward, each binding that a lookup from there
would find, and no other. So it shows each name once, with the value that the
script would read under that name.
-/

namespace ScriptDebugger

namespace VariableList

/-- The names in a list, none for a remark. -/
def names (l : VariableList) : List (Option String) := l.entries.map (·.name)

lemma contains_iff (l : VariableList) (name : String) :
    l.contains name = true ↔ some name ∈ l.names := by
  simp [contains, names]

lemma nodup_set {l : VariableList} (h : l.names.Nodup) (name value : String) :
    (l.set (some name) value).names.Nodup := by
  rw [set]
  split
  case isTrue => exact h
  case isFalse fresh =>
    have fresh : some name ∉ l.names := fun hm => fresh ((l.contains_iff name).mpr hm)
    simp only [names, add, List.map_append, List.map_cons, List.map_nil]
    exact List.concat_eq_append ▸ List.Nodup.concat fresh h

lemma contains_set (l : VariableList) (name' value name : String) :
    (l.set (some name') value).contains name = true ↔ l.contains name = true ∨ name = name' := by
  rw [set, Option.any_some]
  split
  case isTrue listed => exact ⟨.inl, fun h => h.elim id fun same => same ▸ listed⟩
  case isFalse => simp [contains, add, eq_comm (a := name)]

end VariableList

namespace Store

variable (s : Store)

/-- The row of a binding. -/
def row (b : Binding) : VariableEntry := ⟨some b.name, s.render b.value⟩

/-- The bindings of a scope that a lookup from `scope` finds, in their order. -/
def visible (scope id : ScopeId) : List Binding :=
  (s.scope id).bindings.filter fun b => s.binder? scope b.name = some id

/-- Adds the bindings of one scope to a list. -/
def listBindings (bs : List Binding) (l : VariableList) : VariableList :=
  bs.foldl (fun l b => l.set (some b.name) (s.render b.value)) l

lemma nodup_listBindings (bs : List Binding) {l : VariableList} (h : l.names.Nodup) :
    (s.listBindings bs l).names.Nodup := by
  induction bs generalizing l with
  | nil => exact h
  | cons b rest ih => exact ih (VariableList.nodup_set h b.name _)

lemma nodup_displayScope {l : VariableList} (h : l.names.Nodup) (scope root : ScopeId) :
    (s.displayScope l scope root).names.Nodup := by
  rw [displayScope]
  generalize (s.chain scope).takeWhile (· ≠ root) = ids
  induction ids generalizing l with
  | nil => exact h
  | cons id rest ih => exact ih (s.nodup_listBindings _ h)

/-- Of distinct names, those that are not listed yet are added. -/
lemma entries_listBindings {bs : List Binding} (distinct : (bs.map (·.name)).Nodup)
    (l : VariableList) :
    (s.listBindings bs l).entries =
      l.entries ++ (bs.filter fun b => !l.contains b.name).map s.row := by
  induction bs generalizing l with
  | nil => simp [listBindings]
  | cons b rest ih =>
    obtain ⟨fresh, distinct⟩ := List.nodup_cons.mp distinct
    have split : s.listBindings (b :: rest) l =
        s.listBindings rest (l.set (some b.name) (s.render b.value)) := rfl
    rw [split, ih distinct, VariableList.set, Option.any_some]
    cases listed : l.contains b.name with
    | true => simp [listed]
    | false =>
      have same : ∀ c ∈ rest, (l.add (some b.name) (s.render b.value)).contains c.name =
          l.contains c.name := by
        intro c hc
        have ne : ¬ b.name = c.name := fun h => fresh (List.mem_map.mpr ⟨c, hc, h.symm⟩)
        simp [VariableList.contains, VariableList.add, ne]
      have later : (rest.filter fun c =>
          !(l.add (some b.name) (s.render b.value)).contains c.name) =
          rest.filter fun c => !l.contains c.name :=
        List.filter_congr fun c hc => by rw [same c hc]
      simp only [Bool.false_eq_true, if_false, later]
      simp [listed, VariableList.add, row]

lemma contains_listBindings (bs : List Binding) (l : VariableList) (name : String) :
    (s.listBindings bs l).contains name = true ↔
      l.contains name = true ∨ name ∈ bs.map (·.name) := by
  induction bs generalizing l with
  | nil => simp [listBindings]
  | cons b rest ih =>
    have split : s.listBindings (b :: rest) l =
        s.listBindings rest (l.set (some b.name) (s.render b.value)) := rfl
    rw [split, ih, VariableList.contains_set, List.map_cons, List.mem_cons, or_assoc]

/-- The list goes on, scope after scope, with the bindings that a lookup finds. -/
lemma entries_foldl {s : Store} (older : s.Older) {scope : ScopeId}
    {before ids after : List ScopeId} (chain : s.chain scope = before ++ ids ++ after)
    {l : VariableList}
    (listed : ∀ name, l.contains name = true ↔ ∃ i ∈ before, name ∈ (s.scope i).names) :
    (ids.foldl (fun l id => s.listBindings (s.scope id).bindings l) l).entries =
      l.entries ++ ids.flatMap fun id => (s.visible scope id).map s.row := by
  induction ids generalizing before l with
  | nil => simp
  | cons id rest ih =>
    have shown : (s.scope id).bindings.filter (fun b => !l.contains b.name) =
        s.visible scope id := by
      refine List.filter_congr fun b hb => ?_
      have chain : s.chain scope = before ++ id :: (rest ++ after) := by simp [chain]
      have first := binder?_eq_some older chain (List.mem_map_of_mem (f := (·.name)) hb)
      rw [Bool.eq_iff_iff, decide_eq_true_eq, first, Bool.not_eq_true', ← Bool.not_eq_true, listed]
      exact ⟨fun none i hi bound => none ⟨i, hi, bound⟩,
        fun none bound => bound.elim fun i hi => none i hi.1 hi.2⟩
    have chain : s.chain scope = (before ++ [id]) ++ rest ++ after := by simp [chain]
    rw [List.foldl_cons, ih chain, s.entries_listBindings (s.scope id).nodup_names, shown,
      List.flatMap_cons, List.append_assoc]
    intro name
    rw [contains_listBindings, listed]
    simp only [List.mem_append, List.mem_singleton, Scope.names]
    constructor
    · rintro (⟨i, hi, bound⟩ | bound)
      · exact ⟨i, .inl hi, bound⟩
      · exact ⟨id, .inr rfl, bound⟩
    · rintro ⟨i, hi | rfl, bound⟩
      · exact .inl ⟨i, hi, bound⟩
      · exact .inr bound

/-- The rows of a scope that leads outward to `root`: for each scope on the way, the bindings that a
lookup from the innermost one finds. -/
lemma entries_displayScope {s : Store} (made : s.Made) {scope root : ScopeId}
    {ids : List ScopeId} (path : s.Path root scope ids) :
    (s.displayScope .empty scope root).entries =
      ids.flatMap fun id => (s.visible scope id).map s.row := by
  have chain : s.chain scope = [] ++ ids ++ s.chain root := path.chain made.older
  have nothing : ∀ name, VariableList.empty.contains name = true ↔
      ∃ i ∈ ([] : List ScopeId), name ∈ (s.scope i).names := by
    simp [VariableList.contains, VariableList.empty]
  rw [displayScope, path.takeWhile_chain made.older]
  exact entries_foldl made.older chain nothing

/-- What a lookup finds is the value of the binding that is visible. -/
lemma lookup?_of_visible {s : Store} {scope id : ScopeId} {b : Binding}
    (hb : b ∈ s.visible scope id) : s.lookup? scope b.name = some b.value := by
  obtain ⟨hb, first⟩ := List.mem_filter.mp hb
  rw [decide_eq_true_eq] at first
  simp [lookup?, first, (Scope.find?_eq_some_iff _ _ _).mpr ⟨hb, rfl⟩]

/-- The innermost scope of the way that binds a name shows it. -/
lemma exists_visible {s : Store} (older : s.Older) {scope root : ScopeId} {ids : List ScopeId}
    (path : s.Path root scope ids) {name : String} {id : ScopeId} (hid : id ∈ ids)
    (binds : name ∈ (s.scope id).names) :
    ∃ i ∈ ids, ∃ b ∈ s.visible scope i, b.name = name := by
  cases found : ids.find? fun i => (s.scope i).binds name with
  | none =>
    have none := List.find?_eq_none.mp found id hid
    exact absurd ((Scope.binds_iff _ name).mpr binds) none
  | some i =>
    obtain ⟨bound, before, rest, rfl, earlier⟩ := List.find?_eq_some_iff_append.mp found
    obtain ⟨b, hb, same⟩ := List.mem_map.mp ((Scope.binds_iff _ name).mp bound)
    refine ⟨i, by simp, b, List.mem_filter.mpr ⟨hb, ?_⟩, same⟩
    have chain : s.chain scope = before ++ i :: (rest ++ s.chain root) := by
      simp [path.chain older]
    rw [decide_eq_true_eq, binder?_eq_some older chain (List.mem_map_of_mem hb), same]
    intro j hj bound
    have unbound := earlier j hj
    rw [(Scope.binds_iff _ name).mpr bound] at unbound
    cases unbound

section Displayed

variable {s : Store} (made : s.Made) {scope root : ScopeId} {ids : List ScopeId}
  (path : s.Path root scope ids)
include made path

lemma exists_of_mem_displayScope {entry : VariableEntry}
    (h : entry ∈ (s.displayScope .empty scope root).entries) :
    ∃ id ∈ ids, ∃ b ∈ s.visible scope id, s.row b = entry := by
  rw [entries_displayScope made path, List.mem_flatMap] at h
  obtain ⟨id, hid, h⟩ := h
  exact ⟨id, hid, List.mem_map.mp h⟩

lemma contains_displayScope_iff (name : String) :
    (s.displayScope .empty scope root).contains name = true ↔
      ∃ id ∈ ids, name ∈ (s.scope id).names := by
  rw [VariableList.contains_iff, VariableList.names, List.mem_map]
  constructor
  · rintro ⟨entry, hentry, same⟩
    obtain ⟨id, hid, b, hb, rfl⟩ := exists_of_mem_displayScope made path hentry
    obtain rfl : b.name = name := Option.some.inj same
    exact ⟨id, hid, List.mem_map_of_mem (List.mem_filter.mp hb).1⟩
  · rintro ⟨id, hid, binds⟩
    obtain ⟨i, hi, b, hb, rfl⟩ := exists_visible made.older path hid binds
    refine ⟨s.row b, ?_, rfl⟩
    rw [entries_displayScope made path, List.mem_flatMap]
    exact ⟨i, hi, List.mem_map_of_mem hb⟩

lemma get?_displayScope {name : String}
    (listed : (s.displayScope .empty scope root).contains name = true) :
    ∃ v, s.lookup? scope name = some v ∧
      (s.displayScope .empty scope root).get? name = some (s.render v) := by
  rw [VariableList.get?]
  cases found : (s.displayScope .empty scope root).entries.find? fun entry =>
      entry.name == some name with
  | none =>
    obtain ⟨entry, hentry, same⟩ := List.any_eq_true.mp listed
    exact absurd same (List.find?_eq_none.mp found entry hentry)
  | some entry =>
    obtain ⟨id, hid, b, hb, rfl⟩ :=
      exists_of_mem_displayScope made path (List.mem_of_find?_eq_some found)
    have same := List.find?_some found
    obtain rfl : b.name = name := by simpa [row] using same
    exact ⟨b.value, lookup?_of_visible hb, rfl⟩

end Displayed

/-- The list of a scope names what is bound between it and `root`, each name once and innermost
first, with the value that a lookup gives; within a scope the order is that of the first
definitions. The text of an array is made of those of its elements, if the arrays in it nest
finitely; any other array has no text, and its row is arbitrary. -/
theorem displayScope_agrees {s : Store} (made : s.Made) {scope root : ScopeId}
    {ids : List ScopeId} (path : s.Path root scope ids) :
    (s.displayScope .empty scope root).entries =
        ids.flatMap (fun id => (s.visible scope id).map s.row) ∧
      (∀ name, (s.displayScope .empty scope root).contains name = true ↔
        ∃ id ∈ ids, name ∈ (s.scope id).names) ∧
      (s.displayScope .empty scope root).names.Nodup ∧
      (∀ name, (s.displayScope .empty scope root).contains name = true →
        ∃ v, s.lookup? scope name = some v ∧
          (s.displayScope .empty scope root).get? name = some (s.render v)) ∧
      (∀ ref, Acc s.ElementOf ref → s.render (.array ref) = s.join (s.array ref) ",") ∧
      ∀ id name v isMutable, id < s.scopes.size →
        ((s.define id name v isMutable).scope id).names =
          if name ∈ (s.scope id).names then (s.scope id).names
          else (s.scope id).names ++ [name] := by
  refine ⟨entries_displayScope made path, contains_displayScope_iff made path,
    s.nodup_displayScope (l := .empty) List.nodup_nil scope root,
    fun name listed => get?_displayScope made path listed, fun ref finite => display_array finite,
    fun id name v isMutable hid => ?_⟩
  rw [scope_define_eq, if_pos ⟨rfl, hid⟩, Scope.names_define]

/-- A root scope, one inside it that binds a name of the root again, and one inside that one that
does the same and defines a name twice. -/
def shadowing : Store :=
  let root := ((empty.newScope none).1.define 0 "x" (.string "0") false).define 0 "w" .null false
  let outer := ((root.newScope (some 0)).1.define 1 "x" (.string "1") true).define 1 "y" .null true
  (((outer.newScope (some 1)).1.define 2 "y" .null true).define 2 "z" (.string "2") true).define
    2 "y" (.string "3") true

/-- The inner of two bindings of a name is shown, and a name that is defined again keeps its place;
what only the root binds is found by a lookup and not shown. -/
theorem displayScope_of_shadowing :
    shadowing.Made ∧ shadowing.Path 0 2 [2, 1] ∧
      (shadowing.displayScope .empty 2 0).entries =
        [⟨some "y", "3"⟩, ⟨some "z", "2"⟩, ⟨some "x", "1"⟩] ∧
      (∃ v, shadowing.lookup? 2 "x" = some v ∧ shadowing.render v = "1") ∧
      (shadowing.lookup? 2 "w").isSome = true ∧
      (shadowing.displayScope .empty 2 0).contains "w" = false := by
  have made : shadowing.Made := by
    have root := ((Made.empty.newRoot).define 0 "x" (.string "0") false).define 0 "w" .null false
    have outer := ((root.newScope Nat.one_pos).define 1 "x" (.string "1") true).define
      1 "y" .null true
    exact (((outer.newScope Nat.one_lt_two).define 2 "y" .null true).define
      2 "z" (.string "2") true).define 2 "y" (.string "3") true
  have path : shadowing.Path 0 2 [2, 1] :=
    .outward (by decide) (by decide +kernel) (.outward (by decide) (by decide +kernel) .here)
  obtain ⟨entries, named, -, values, -⟩ := displayScope_agrees made path
  have entries : (shadowing.displayScope .empty 2 0).entries =
      [⟨some "y", "3"⟩, ⟨some "z", "2"⟩, ⟨some "x", "1"⟩] := entries.trans (by decide +kernel)
  have listed (name : String) :
      (shadowing.displayScope .empty 2 0).contains name = true ↔ name ∈ ["y", "z", "x"] := by
    rw [VariableList.contains_iff, VariableList.names, entries]
    simp
  obtain ⟨v, found, shown⟩ := values "x" ((listed "x").mpr (by decide))
  refine ⟨made, path, entries, ⟨v, found, ?_⟩, by decide +kernel, ?_⟩
  · rw [VariableList.get?, entries] at shown
    exact (Option.some.inj shown).symm
  · rw [← Bool.not_eq_true, listed]
    decide

end Store

end ScriptDebugger
