import Mathlib
import ScriptDebugger.Machine.Step
import ScriptDebugger.Proofs.Number.Digits
import ScriptDebugger.Proofs.Value.ScopeTree

/-!
# Members are read as they are written

A write to an object sets one key, behind the others if it is new
(`ObjectWritten`); a write to an array at an index sets one element, and the
array grows as far as that takes (`ElementWritten`). Which keys are indices is
said by `arrayIndex?_eq_some_iff`, and `members_read_back` puts all together.
-/

namespace ScriptDebugger

namespace Record

/-- The keys in order. -/
def keys (r : Record) : List String := r.properties.map (·.1)

/-- What writes make of an empty record. -/
def ofWrites (writes : List (String × Value)) : Record :=
  writes.foldl (fun r w => r.set w.1 w.2) .empty

lemma map_setIn (key : String) (v : Value) (ps : List (String × Value)) :
    (setIn key v ps).map (·.1) =
      if key ∈ ps.map (·.1) then ps.map (·.1) else ps.map (·.1) ++ [key] := by
  induction ps with
  | nil => rfl
  | cons p ps ih =>
    obtain ⟨k, w⟩ := p
    by_cases here : k = key
    · simp [setIn, here]
    · simp only [setIn, here, if_false, List.map_cons, List.mem_cons, Ne.symm here, false_or, ih]
      by_cases old : key ∈ ps.map (·.1)
      · rw [if_pos old, if_pos old]
      · rw [if_neg old, if_neg old, List.cons_append]

lemma keys_set (r : Record) (key : String) (v : Value) :
    (r.set key v).keys = if key ∈ r.keys then r.keys else r.keys ++ [key] :=
  map_setIn key v r.properties

lemma nodup_keys_set {r : Record} (unique : r.keys.Nodup) (key : String) (v : Value) :
    (r.set key v).keys.Nodup := by
  rw [keys_set]
  split
  case isTrue => exact unique
  case isFalse new =>
    refine List.nodup_append.mpr ⟨unique, List.nodup_singleton key, fun a ha b hb => ?_⟩
    rintro rfl
    exact new (List.mem_singleton.mp hb ▸ ha)

/-- The keys of a record are those that have been written, each where it comes first. -/
lemma keys_ofWrites (writes : List (String × Value)) :
    (ofWrites writes).keys = (writes.map (·.1)).eraseDups := by
  induction writes using List.reverseRecOn with
  | nil => rfl
  | append_singleton writes w ih =>
    have last : ofWrites (writes ++ [w]) = (ofWrites writes).set w.1 w.2 := by
      simp [ofWrites, List.foldl_append]
    rw [last, keys_set, ih, List.map_append, List.map_singleton, Store.eraseDups_concat]

end Record

namespace Store

variable (s : Store)

lemma record_setRecord (ref : Ref) (f : Record → Record) (r : Ref) :
    (s.setRecord ref f).record r =
      if r = ref ∧ ref < s.records.size then f (s.record ref) else s.record r := by
  simp only [record, setRecord, Array.getElem?_modify]
  by_cases here : ref = r
  · subst here
    by_cases inside : ref < s.records.size
    · simp [inside]
    · simp [inside]
  · simp [here, Ne.symm here]

/-- `s'` is `s` after `v` has been written to an object under a key. -/
structure ObjectWritten (ref : Ref) (key : String) (v : Value) (s' : Store) : Prop where
  reads : s'.getMember (.object ref) key = .ok (.plain v)
  others : ∀ k, k ≠ key → s'.getMember (.object ref) k = s.getMember (.object ref) k
  keys : (s'.record ref).keys =
    if key ∈ (s.record ref).keys then (s.record ref).keys else (s.record ref).keys ++ [key]
  unique : (s.record ref).keys.Nodup → (s'.record ref).keys.Nodup
  /-- The keys stand in the order in which they were first written. -/
  ordered : ∀ writes, s.record ref = .ofWrites writes →
    (s'.record ref).keys = (writes.map (·.1) ++ [key]).eraseDups
  elsewhere : (∀ r, r ≠ ref → s'.record r = s.record r) ∧ s' = { s with records := s'.records }

lemma objectWritten_setMember {ref : Ref} (inside : ref < s.records.size) (key : String)
    (v : Value) : s.ObjectWritten ref key v (s.setMember (.object ref) key v) := by
  have written : (s.setMember (.object ref) key v).record ref = (s.record ref).set key v := by
    rw [setMember, record_setRecord, if_pos ⟨rfl, inside⟩]
  refine ⟨?_, fun k other => ?_, ?_, fun unique => ?_, fun writes made => ?_, fun r other => ?_,
    rfl⟩
  · rw [getMember, written, Record.get?_set, if_pos rfl]
    rfl
  · rw [getMember, written, Record.get?_set, if_neg other.symm]
    rfl
  · rw [written, Record.keys_set]
  · rw [written]
    exact Record.nodup_keys_set unique key v
  · rw [written, Record.keys_set, made, Record.keys_ofWrites, ← eraseDups_concat]
  · rw [setMember, record_setRecord, if_neg fun both => other both.1]

lemma toList_toString (n : Nat) : (toString n).toList = Nat.toDigits 10 n := by
  rw [Nat.toString_eq_ofList_toDigits, String.toList_ofList]

lemma eq_toString_of_arrayIndex? {key : String} {i : Nat} (h : arrayIndex? key = some i) :
    key = toString i ∧ i < 2 ^ 64 := by
  unfold arrayIndex? at h
  split at h
  case h_1 => cases h
  case h_2 zero =>
    cases h
    exact ⟨String.toList_inj.mp (zero.trans (toList_toString 0).symm), by decide⟩
  case h_3 => cases h
  case h_4 nonempty _ first =>
    simp only [Option.ite_none_right_eq_some, Option.some.injEq] at h
    obtain ⟨digits, small, rfl⟩ := h
    refine ⟨String.toList_inj.mp ?_, small⟩
    cases text : key.toList with
    | nil => exact absurd text nonempty
    | cons c ds =>
      rw [text] at digits
      rw [toList_toString, Number.toDigits_ofDigits (List.all_eq_true.mp digits)]
      rintro rfl
      exact first ds text

lemma arrayIndex?_toString {i : Nat} (small : i < 2 ^ 64) : arrayIndex? (toString i) = some i := by
  rcases Nat.eq_zero_or_pos i with rfl | pos
  · rfl
  have text := toList_toString i
  have digits : (Nat.toDigits 10 i).all Number.isDigit = true :=
    List.all_eq_true.mpr fun c hc => Number.isDigit_of_mem_toDigits hc
  have first := Number.head?_toDigits_ne pos
  have value := Number.ofDigits_toDigits i
  generalize Nat.toDigits 10 i = cs at text digits first value
  unfold arrayIndex?
  rw [text]
  split
  case h_1 => cases value; exact absurd pos (Nat.lt_irrefl 0)
  case h_2 => exact absurd rfl first
  case h_3 => exact absurd rfl first
  case h_4 =>
    rw [if_pos digits, value]
    exact if_pos small

/-- An index is written in decimal digits, without a sign and without a zero in front. -/
lemma arrayIndex?_eq_some_iff {key : String} {i : Nat} :
    arrayIndex? key = some i ↔ key = toString i ∧ i < 2 ^ 64 := by
  refine ⟨eq_toString_of_arrayIndex?, ?_⟩
  rintro ⟨rfl, small⟩
  exact arrayIndex?_toString small

/-- No word is an index. -/
lemma ne_toString_of_not_isDigit {key : String} {c : Char} (mem : c ∈ key.toList)
    (other : Number.isDigit c = false) (i : Nat) : key ≠ toString i := by
  rintro rfl
  rw [toList_toString] at mem
  rw [Number.isDigit_of_mem_toDigits mem] at other
  cases other

lemma length_ne_toString (i : Nat) : "length" ≠ toString i :=
  ne_toString_of_not_isDigit (c := 'l') (by decide) rfl i

lemma size_setElement (items : Array Value) (i : Nat) (v : Value) :
    (setElement items i v).size = max items.size (i + 1) := by
  rw [setElement]
  split
  case isTrue inside =>
    rw [Array.size_setIfInBounds]
    omega
  case isFalse beyond =>
    rw [Array.size_push, Array.size_append, Array.size_replicate]
    omega

lemma getElem?_setElement (items : Array Value) (i : Nat) (v : Value) (j : Nat) :
    (setElement items i v)[j]? =
      if j = i then some v
      else if j < items.size then items[j]?
      else if j < i then some .undefined else none := by
  rw [setElement]
  split
  case isTrue inside =>
    by_cases here : j = i
    · subst here
      simp [inside]
    · rw [Array.getElem?_setIfInBounds_ne (Ne.symm here), if_neg here]
      split
      · rfl
      · rw [if_neg (by omega), Array.getElem?_eq_none (by omega)]
  case isFalse beyond =>
    have size : (items ++ Array.replicate (i - items.size) Value.undefined).size = i := by
      rw [Array.size_append, Array.size_replicate]
      omega
    rw [Array.getElem?_push, size]
    split
    · rfl
    · rw [Array.getElem?_append]
      split
      · rfl
      · rw [Array.getElem?_replicate]
        have same : j - items.size < i - items.size ↔ j < i := by omega
        simp only [same]

lemma array_newArray (items : Array Value) : (s.newArray items).1.array s.arrays.size = items := by
  simp only [newArray, array, Array.getElem?_push_size, Option.getD_some]

lemma array_setArray (ref : Ref) (f : Array Value → Array Value) (r : Ref) :
    (s.setArray ref f).array r =
      if r = ref ∧ ref < s.arrays.size then f (s.array ref) else s.array r := by
  simp only [array, setArray, Array.getElem?_modify]
  by_cases here : ref = r
  · subst here
    by_cases inside : ref < s.arrays.size
    · simp [inside]
    · simp [inside]
  · simp [here, Ne.symm here]

lemma getMember_array (ref : Ref) {i : Nat} (small : i < 2 ^ 64) :
    s.getMember (.array ref) (toString i) =
      .ok (.plain (((s.array ref)[i]?).getD .undefined)) := by
  rw [getMember, if_neg (length_ne_toString i).symm, arrayIndex?_toString small]

/-- `s'` is `s` after `v` has been written to an array at an index. -/
structure ElementWritten (ref : Ref) (i : Nat) (v : Value) (s' : Store) : Prop where
  size : (s'.array ref).size = max (s.array ref).size (i + 1)
  length : s'.getMember (.array ref) "length" =
    .ok (.plain (.number (Float.ofNat (max (s.array ref).size (i + 1)))))
  reads : s'.getMember (.array ref) (toString i) = .ok (.plain v)
  kept : ∀ j, j < (s.array ref).size → j ≠ i → (s'.array ref)[j]? = (s.array ref)[j]?
  new : ∀ j, (s.array ref).size ≤ j → j < i →
    s'.getMember (.array ref) (toString j) = .ok (.plain .undefined)
  others : ∀ k, k ≠ toString i → k ≠ "length" →
    s'.getMember (.array ref) k = s.getMember (.array ref) k
  elsewhere : (∀ r, r ≠ ref → s'.array r = s.array r) ∧ s' = { s with arrays := s'.arrays }

lemma elementWritten_setMember {ref : Ref} (inside : ref < s.arrays.size) {i : Nat}
    (small : i < 2 ^ 64) (v : Value) :
    s.ElementWritten ref i v (s.setMember (.array ref) (toString i) v) := by
  have step : s.setMember (.array ref) (toString i) v =
      s.setArray ref fun items => setElement items i v := by
    rw [setMember, arrayIndex?_toString small]
  have written : (s.setMember (.array ref) (toString i) v).array ref =
      setElement (s.array ref) i v := by
    rw [step, array_setArray, if_pos ⟨rfl, inside⟩]
  have size : ((s.setMember (.array ref) (toString i) v).array ref).size =
      max (s.array ref).size (i + 1) := by
    rw [written, size_setElement]
  refine ⟨size, ?_, ?_, fun j old other => ?_, fun j new below => ?_, fun k other word => ?_,
    fun r other => ?_, ?_⟩
  · rw [getMember, if_pos rfl, size]
  · rw [getMember_array _ ref small, written, getElem?_setElement, if_pos rfl]
    rfl
  · rw [written, getElem?_setElement, if_neg other, if_pos old]
  · rw [getMember_array _ ref (Nat.lt_trans below small), written, getElem?_setElement,
      if_neg (Nat.ne_of_lt below), if_neg (Nat.not_lt_of_le new), if_pos below]
    rfl
  · rw [getMember, getMember, if_neg word, if_neg word]
    cases index : arrayIndex? k with
    | none => rfl
    | some j =>
      obtain ⟨rfl, -⟩ := eq_toString_of_arrayIndex? index
      have apart : j ≠ i := fun same => other (congrArg toString same)
      -- a slot that the array has grown by reads as one that it did not have
      have read : ((setElement (s.array ref) i v)[j]?).getD .undefined =
          ((s.array ref)[j]?).getD .undefined := by
        rw [getElem?_setElement, if_neg apart]
        split
        case isTrue => rfl
        case isFalse beyond =>
          rw [Array.getElem?_eq_none (Nat.le_of_not_lt beyond)]
          split <;> rfl
      simp only [written, read]
  · rw [step, array_setArray, if_neg fun both => other both.1]
  · rw [step]
    rfl

end Store

namespace Machine

variable (m : Machine)

lemma throwFault_eq (f : Fault) : ∃ s r,
    m.throwFault f = throwValue { m with store := s } (.error r) ∧ s.error r = f.toError ∧
      s.arrays = m.store.arrays :=
  ⟨(m.store.newError f.toError).1, m.store.errors.size, rfl, by simp [Store.newError, Store.error],
    rfl⟩

/-- A member is read as it was written. A write to an object leaves its other keys as they are, and
their order; a write to an array at an index leaves the other elements as they are, and what the
array grows by has no value; from an index on that is too large it throws and changes no array; and
under any other key, such as `length` or the name of a method, it changes nothing. -/
theorem members_read_back (ref : Ref) (key : String) (v result : Value) :
    (ref < m.store.records.size → ∃ s,
      m.writeMember (.object ref) key v result = give { m with store := s } result ∧
        m.store.ObjectWritten ref key v s) ∧
    (ref < m.store.arrays.size → ∀ i < 2 ^ 64, key = toString i → i ≤ 2 ^ 24 → ∃ s,
      m.writeMember (.array ref) key v result = give { m with store := s } result ∧
        m.store.ElementWritten ref i v s) ∧
    (∀ i < 2 ^ 64, key = toString i → 2 ^ 24 < i → ∃ s r,
      m.writeMember (.array ref) key v result = throwValue { m with store := s } (.error r) ∧
        s.error r = ⟨"RangeError", "Invalid array length"⟩ ∧ s.arrays = m.store.arrays) ∧
    ((∀ i < 2 ^ 64, key ≠ toString i) →
      m.writeMember (.array ref) key v result = m.give result) ∧
    ((key = "length" ∨ ∃ method : ArrayMethod, key = method.name) → ∀ i : Nat, key ≠ toString i) := by
  refine ⟨fun inside => ?_, fun inside i small index fits => ?_, fun i small index large => ?_,
    fun other => ?_, fun word => ?_⟩
  · exact ⟨_, rfl, m.store.objectWritten_setMember inside key v⟩
  · subst index
    refine ⟨_, ?_, m.store.elementWritten_setMember inside small v⟩
    have fits : ¬ maxArrayIndex < i := Nat.not_lt_of_le fits
    rw [writeMember, Store.setMemberFault?, Store.arrayIndex?_toString small]
    simp only [if_neg fits]
  · subst index
    have large : maxArrayIndex < i := large
    rw [writeMember, Store.setMemberFault?, Store.arrayIndex?_toString small]
    simp only [if_pos large]
    exact m.throwFault_eq .invalidArrayLength
  · have none : arrayIndex? key = none := by
      cases index : arrayIndex? key with
      | none => rfl
      | some i =>
        obtain ⟨same, small⟩ := Store.arrayIndex?_eq_some_iff.mp index
        exact absurd same (other i small)
    rw [writeMember, Store.setMemberFault?, Store.setMember, none]
  · rcases word with rfl | ⟨method, rfl⟩
    · exact Store.length_ne_toString
    · have letters : (method.name.toList.any fun c => !Number.isDigit c) = true := by
        cases method <;> rfl
      obtain ⟨c, mem, letter⟩ := List.any_eq_true.mp letters
      exact Store.ne_toString_of_not_isDigit mem (Bool.not_eq_true' _ ▸ letter)

/-- An object with one key and an array with one element: a new key, an index that lies ahead, one
that is too large, and a key with a zero that it does not need. -/
theorem members_read_back_small :
    let s : Store := { Store.empty with
      records := #[⟨[("a", .null)]⟩]
      arrays := #[#[.bool true]] }
    let m : Machine := ⟨s, .empty 1, "", .done, []⟩
    (∃ s', m.writeMember (.object 0) "b" .null .undefined = give { m with store := s' } .undefined ∧
      s.ObjectWritten 0 "b" .null s' ∧ (s'.record 0).keys = ["a", "b"]) ∧
    (∃ s', m.writeMember (.array 0) "3" .null .undefined = give { m with store := s' } .undefined ∧
      s.ElementWritten 0 3 .null s' ∧ (s'.array 0).size = 4 ∧
      s'.getMember (.array 0) "2" = .ok (.plain .undefined)) ∧
    (∃ s' r, m.writeMember (.array 0) "16777217" .null .undefined =
      throwValue { m with store := s' } (.error r) ∧
      s'.error r = ⟨"RangeError", "Invalid array length"⟩ ∧ s'.arrays = s.arrays) ∧
    m.writeMember (.array 0) "01" .null .undefined = m.give .undefined ∧
    ∀ i : Nat, "pop" ≠ toString i := by
  intro s m
  obtain ⟨object, -, -, -, -⟩ := members_read_back m 0 "b" .null .undefined
  obtain ⟨-, ahead, -, -, -⟩ := members_read_back m 0 "3" .null .undefined
  obtain ⟨-, -, large, -, -⟩ := members_read_back m 0 "16777217" .null .undefined
  obtain ⟨-, -, -, other, -⟩ := members_read_back m 0 "01" .null .undefined
  obtain ⟨-, -, -, -, word⟩ := members_read_back m 0 "pop" .null .undefined
  obtain ⟨s₁, step₁, written₁⟩ := object (by decide)
  obtain ⟨s₂, step₂, written₂⟩ := ahead (by decide) 3 (by decide) rfl (by decide)
  refine ⟨⟨s₁, step₁, written₁, written₁.keys⟩, ⟨s₂, step₂, written₂, written₂.size, ?_⟩,
    large 16777217 (by decide) (by decide) (by decide), other fun i small same => ?_,
    word (.inr ⟨.pop, rfl⟩)⟩
  · exact written₂.new 2 (by decide) (by decide)
  · have index := Store.arrayIndex?_toString small
    rw [← same] at index
    cases index

end Machine

end ScriptDebugger
