import Mathlib.Data.List.Perm.Subperm
import Mathlib.Data.List.Range
import Mathlib.Logic.Relation
import ScriptDebugger.Value.Convert

/-!
# The text of an array

`displayWithin` looks into arrays down to a bound. Arrays that nest finitely are
all different on the way down from one to what stands inside it, so they nest no
deeper than there are arrays, and the bound is not reached: the text of such an
array is that of its elements (`Store.display_array`). An array that stands inside
itself has no text, since reading one off would never end.
-/

namespace ScriptDebugger

namespace Store

variable (s : Store)

/-- The array `inner` is an element of the array `outer`. That the arrays inside `outer` nest
finitely is that `outer` is accessible by this relation. -/
def ElementOf (inner outer : Ref) : Prop := Value.array inner ∈ s.array outer

variable {s}

lemma lt_of_elementOf {inner outer : Ref} (h : s.ElementOf inner outer) :
    outer < s.arrays.size := by
  by_contra outside
  have empty : s.array outer = #[] := by
    rw [array, Array.getElem?_eq_none (Nat.le_of_not_lt outside), Option.getD_none]
  rw [ElementOf, empty] at h
  simp at h

lemma not_inside_self {ref : Ref} (h : Acc s.ElementOf ref) :
    ¬ Relation.TransGen s.ElementOf ref ref := by
  have inside := h.transGen
  induction inside with
  | intro ref _ ih =>
    intro cycle
    exact ih ref cycle h cycle

/-- The arrays around an array are no more than there are. -/
lemma length_le_of_inside {ref : Ref} {around : List Ref} (distinct : around.Nodup)
    (inside : ∀ outer ∈ around, Relation.TransGen s.ElementOf ref outer) :
    around.length ≤ s.arrays.size := by
  have known : around ⊆ List.range s.arrays.size := by
    intro outer hmem
    obtain ⟨inner, -, element⟩ := Relation.TransGen.tail'_iff.mp (inside outer hmem)
    exact List.mem_range.mpr (lt_of_elementOf element)
  simpa using (List.subperm_of_subset distinct known).length_le

/-- Only the text of an array depends on how deep it is looked for. -/
lemma displayWithin_eq_of_ne_array {v : Value} (h : ∀ ref, v ≠ .array ref) (d d' : Nat) :
    s.displayWithin d v = s.displayWithin d' v := by
  cases v with
  | array ref => exact absurd rfl (h ref)
  | _ => simp only [displayWithin]

/-- Inside the arrays `around` it is enough to look as deep as there are other arrays. -/
lemma displayWithin_eq {ref : Ref} (h : Acc s.ElementOf ref) (around : List Ref)
    (distinct : around.Nodup)
    (inside : ∀ outer ∈ around, Relation.TransGen s.ElementOf ref outer) {d d' : Nat}
    (enough : s.arrays.size < d + around.length) (enough' : s.arrays.size < d' + around.length) :
    s.displayWithin d (.array ref) = s.displayWithin d' (.array ref) := by
  induction h generalizing around d d' with
  | intro ref acc ih =>
    have few := length_le_of_inside distinct inside
    obtain ⟨d, rfl⟩ := Nat.exists_eq_add_one.mpr (by omega : 0 < d)
    obtain ⟨d', rfl⟩ := Nat.exists_eq_add_one.mpr (by omega : 0 < d')
    have fresh : ref ∉ around := fun hmem => not_inside_self (.intro ref acc) (inside ref hmem)
    have element (v : Value) (hv : v ∈ (s.array ref).toList) :
        elementText (s.displayWithin d) v = elementText (s.displayWithin d') v := by
      cases v with
      | array inner =>
        have element : s.ElementOf inner ref := Array.mem_toList_iff.mp hv
        have inside' : ∀ outer ∈ ref :: around, Relation.TransGen s.ElementOf inner outer := by
          intro outer hmem
          rcases List.mem_cons.mp hmem with rfl | hmem
          · exact .single element
          · exact .head element (inside outer hmem)
        refine ih inner element (ref :: around) (List.nodup_cons.mpr ⟨fresh, distinct⟩) inside'
          ?_ ?_
        all_goals
          rw [List.length_cons]
          omega
      | undefined | null => rfl
      | _ => exact displayWithin_eq_of_ne_array (by simp) d d'
    rw [displayWithin, displayWithin, List.map_congr_left element]

/-- The text of an array in which arrays nest finitely is made of the texts of its elements. -/
theorem display_array {ref : Ref} (h : Acc s.ElementOf ref) :
    s.display (.array ref) = s.join (s.array ref) "," := by
  have element (v : Value) (hv : v ∈ (s.array ref).toList) :
      elementText (s.displayWithin s.arrays.size) v = elementText s.display v := by
    cases v with
    | array inner =>
      have element : s.ElementOf inner ref := Array.mem_toList_iff.mp hv
      exact displayWithin_eq (h.inv element) [ref] (by simp) (by simpa using .single element)
        (by simp) (Nat.lt_succ_of_lt (Nat.lt_succ_self _))
    | undefined | null => rfl
    | _ => exact displayWithin_eq_of_ne_array (by simp) ..
  rw [display, displayWithin, List.map_congr_left element, join]

end Store

end ScriptDebugger
