import ScriptDebugger.Machine.Call
import ScriptDebugger.Proofs.Source.Positions
import ScriptDebugger.Proofs.Value.Members

/-!
# Searching a text

A text is searched by bytes and read by characters. Since no byte inside a
character begins one, and no character is the beginning of another, bytes that
are found are characters that are found (`standsAt_utf8Bytes`,
`exists_place_of_standsAt`), and the first of the ones are the first of the others.
So `indexOf` gives the first place from which on the two texts read alike.
-/

namespace ScriptDebugger

/-- `needle` stands in `xs` from place `k` on. -/
def StandsAt {α : Type} (needle xs : List α) (k : Nat) : Prop :=
  k ≤ xs.length ∧ needle <+: xs.drop k

namespace StandsAt

variable {α : Type} {needle xs : List α} {x : α} {k : Nat}

lemma iff_getElem? : StandsAt needle xs k ↔
    k + needle.length ≤ xs.length ∧ ∀ j < needle.length, xs[k + j]? = needle[j]? := by
  constructor
  · rintro ⟨inside, stands⟩
    have fits := stands.length_le
    rw [List.length_drop] at fits
    refine ⟨by omega, fun j hj => ?_⟩
    have same := List.prefix_iff_getElem?.mp stands j hj
    rw [List.getElem?_drop] at same
    rw [same, List.getElem?_eq_getElem hj]
  · rintro ⟨fits, same⟩
    refine ⟨by omega, List.prefix_iff_getElem?.mpr fun j hj => ?_⟩
    rw [List.getElem?_drop, same j hj, List.getElem?_eq_getElem hj]

lemma zero_iff : StandsAt needle xs 0 ↔ needle <+: xs := by
  simp [StandsAt]

lemma succ_iff : StandsAt needle (x :: xs) (k + 1) ↔ StandsAt needle xs k := by
  simp [StandsAt]

end StandsAt

/-- The first offset at which bytes stand in others is found, if there is one. -/
lemma findBytes_spec (needle : List UInt8) (offset : Nat) (bytes : List UInt8) :
    (∃ n, findBytes needle offset bytes = some (offset + n) ∧
      IsLeast {n | StandsAt needle bytes n} n) ∨
    findBytes needle offset bytes = none ∧ ∀ n, ¬ StandsAt needle bytes n := by
  have here {bytes : List UInt8} (stands : needle <+: bytes) :
      IsLeast {n | StandsAt needle bytes n} 0 :=
    ⟨StandsAt.zero_iff.mpr stands, fun _ _ => Nat.zero_le _⟩
  induction bytes generalizing offset with
  | nil =>
    rw [findBytes]
    split
    case isTrue empty => exact .inl ⟨0, rfl, here (List.isEmpty_iff.mp empty ▸ List.nil_prefix)⟩
    case isFalse some =>
      refine .inr ⟨rfl, fun n stands => some ?_⟩
      obtain ⟨-, stands⟩ := stands
      rw [List.drop_nil] at stands
      exact List.isEmpty_iff.mpr (List.prefix_nil.mp stands)
  | cons b bs ih =>
    rw [findBytes]
    split
    case isTrue stands => exact .inl ⟨0, rfl, here (List.isPrefixOf_iff_prefix.mp stands)⟩
    case isFalse other =>
      have later (n : Nat) (stands : StandsAt needle (b :: bs) n) :
          ∃ k, n = k + 1 ∧ StandsAt needle bs k := by
        cases n with
        | zero => exact absurd (List.isPrefixOf_iff_prefix.mpr (StandsAt.zero_iff.mp stands)) other
        | succ k => exact ⟨k, rfl, StandsAt.succ_iff.mp stands⟩
      rcases ih (offset + 1) with ⟨n, found, stands, least⟩ | ⟨missing, none⟩
      · refine .inl ⟨n + 1, by rw [found]; congr 1; omega, StandsAt.succ_iff.mpr stands, ?_⟩
        intro i hi
        obtain ⟨k, rfl, hk⟩ := later i hi
        exact Nat.succ_le_succ (least hk)
      · refine .inr ⟨missing, fun i hi => ?_⟩
        obtain ⟨k, rfl, hk⟩ := later i hi
        exact none k hk

section Characters

variable {cs ds : List Char}

/-- Bytes that begin with those of a character begin with no other. -/
lemma utf8EncodeChar_append_inj {c d : Char} {xs ys : List UInt8}
    (h : String.utf8EncodeChar c ++ xs = String.utf8EncodeChar d ++ ys) : c = d ∧ xs = ys := by
  have read (c : Char) (xs : List UInt8) :
      ByteArray.utf8DecodeChar? (String.utf8EncodeChar c ++ xs).toByteArray 0 = some c := by
    rw [List.toByteArray_append]
    exact ByteArray.utf8DecodeChar?_utf8EncodeChar_append
  have same := read c xs
  rw [h, read d ys, Option.some.injEq] at same
  subst same
  exact ⟨rfl, List.append_cancel_left h⟩

lemma utf8Bytes_prefix_iff : utf8Bytes cs <+: utf8Bytes ds ↔ cs <+: ds := by
  constructor
  · intro h
    induction cs generalizing ds with
    | nil => exact List.nil_prefix
    | cons c cs ih =>
      obtain ⟨rest, split⟩ := h
      rw [utf8Bytes_cons, List.append_assoc] at split
      cases ds with
      | nil =>
        have empty := (List.append_eq_nil_iff.mp split).1
        exact absurd empty String.utf8EncodeChar_ne_nil
      | cons d ds =>
        obtain ⟨rfl, tail⟩ := utf8EncodeChar_append_inj split
        exact List.cons_prefix_cons.mpr ⟨rfl, ih ⟨rest, tail⟩⟩
  · rintro ⟨rest, rfl⟩
    rw [utf8Bytes_append]
    exact List.prefix_append _ _

lemma drop_utf8Bytes (k : Nat) (cs : List Char) :
    (utf8Bytes cs).drop (byteLength (cs.take k)) = utf8Bytes (cs.drop k) := by
  conv => lhs; rw [← List.take_append_drop k cs]
  rw [utf8Bytes_append, ← length_utf8Bytes, List.take_append_drop, List.drop_left]

/-- A byte that begins a character stands behind whole characters. -/
lemma exists_place_of_first {n : Nat} {b : UInt8} (at_ : (utf8Bytes cs)[n]? = some b)
    (first : b.IsUTF8FirstByte) : ∃ k ≤ cs.length, n = byteLength (cs.take k) := by
  induction cs generalizing n with
  | nil => cases at_
  | cons c cs ih =>
    rw [utf8Bytes_cons] at at_
    by_cases own : n < (String.utf8EncodeChar c).length
    · rw [List.getElem?_append_left own, List.getElem?_eq_getElem own, Option.some.injEq] at at_
      subst at_
      exact ⟨0, Nat.zero_le _, UInt8.isUTF8FirstByte_getElem_utf8EncodeChar.mp first⟩
    · rw [List.getElem?_append_right (Nat.le_of_not_lt own)] at at_
      obtain ⟨k, hk, place⟩ := ih at_
      refine ⟨k + 1, Nat.succ_le_succ hk, ?_⟩
      rw [String.length_utf8EncodeChar] at own place
      rw [List.take_succ_cons, byteLength_cons]
      omega

lemma standsAt_utf8Bytes {k : Nat} (inside : k ≤ ds.length) :
    StandsAt (utf8Bytes cs) (utf8Bytes ds) (byteLength (ds.take k)) ↔ StandsAt cs ds k := by
  have fits : byteLength (ds.take k) ≤ (utf8Bytes ds).length := by
    have split := byteLength_append (ds.take k) (ds.drop k)
    rw [List.take_append_drop] at split
    rw [length_utf8Bytes, split]
    exact Nat.le_add_right _ _
  rw [StandsAt, StandsAt, drop_utf8Bytes, utf8Bytes_prefix_iff]
  simp only [fits, inside, true_and]

/-- Characters whose bytes stand somewhere stand where a character begins. -/
lemma exists_place_of_standsAt {n : Nat} (nonempty : cs ≠ [])
    (h : StandsAt (utf8Bytes cs) (utf8Bytes ds) n) :
    ∃ k ≤ ds.length, n = byteLength (ds.take k) := by
  obtain ⟨c, rest, rfl⟩ := List.exists_cons_of_ne_nil nonempty
  obtain ⟨fits, same⟩ := StandsAt.iff_getElem?.mp h
  have pos : 0 < (String.utf8EncodeChar c).length := by
    rw [String.length_utf8EncodeChar]
    exact c.utf8Size_pos
  have inside : 0 < (utf8Bytes (c :: rest)).length := by
    rw [utf8Bytes_cons, List.length_append]
    omega
  have at_ := same 0 inside
  rw [utf8Bytes_cons, List.getElem?_append_left pos, List.getElem?_eq_getElem pos] at at_
  exact exists_place_of_first at_ (UInt8.isUTF8FirstByte_getElem_utf8EncodeChar.mpr rfl)

lemma byteLength_take_lt {i k : Nat} (before : i < k) (inside : k ≤ cs.length) :
    byteLength (cs.take i) < byteLength (cs.take k) := by
  have split : cs.take k = cs.take i ++ (cs.drop i).take (k - i) := by
    rw [← List.take_add, Nat.add_sub_cancel' (Nat.le_of_lt before)]
  cases between : (cs.drop i).take (k - i) with
  | nil =>
    have length := congrArg List.length between
    rw [List.length_take, List.length_drop, List.length_nil] at length
    omega
  | cons c rest =>
    have pos := c.utf8Size_pos
    rw [split, between, byteLength_append, byteLength_cons]
    omega

end Characters

/-- The first place at which a text stands in another is found, if there is one. -/
lemma findText?_spec (needle text : String) :
    (∃ k, findText? needle text = some k ∧ IsLeast {k | StandsAt needle.toList text.toList k} k) ∨
    findText? needle text = none ∧ ∀ k, ¬ StandsAt needle.toList text.toList k := by
  rw [findText?, toList_toUTF8, toList_toUTF8]
  rcases findBytes_spec (utf8Bytes needle.toList) 0 (utf8Bytes text.toList) with
    ⟨n, found, stands, least⟩ | ⟨missing, none⟩
  · have place : ∃ k ≤ text.toList.length, n = byteLength (text.toList.take k) := by
      by_cases empty : needle.toList = []
      · have first : n ≤ 0 := least (by simp [StandsAt, empty, utf8Bytes])
        exact ⟨0, Nat.zero_le _, Nat.le_zero.mp first⟩
      · exact exists_place_of_standsAt empty stands
    obtain ⟨k, inside, rfl⟩ := place
    have counted := takeBytes_append_add 0 (text.toList.take k) (text.toList.drop k)
    rw [Nat.add_zero, List.take_append_drop, takeBytes_zero, List.append_nil] at counted
    refine .inl ⟨k, ?_, (standsAt_utf8Bytes inside).mp stands, fun i hi => ?_⟩
    · rw [found, Nat.zero_add, Option.map_some, counted, List.length_take, Nat.min_eq_left inside]
    · refine Nat.le_of_not_lt fun before => ?_
      have sooner := least ((standsAt_utf8Bytes hi.1).mpr hi)
      exact absurd (byteLength_take_lt before inside) (Nat.not_lt_of_le sooner)
  · refine .inr ⟨by rw [missing]; rfl, fun k hk => ?_⟩
    exact none _ ((standsAt_utf8Bytes hk.1).mpr hk)

namespace Store

variable (s : Store)

lemma getMember_string (text : String) {k : Nat} (small : k < 2 ^ 64) :
    s.getMember (.string text) (toString k) =
      .ok (.plain ((text.toList[k]?.map fun c => .string c.toString).getD .undefined)) := by
  rw [getMember, if_neg (length_ne_toString k).symm, arrayIndex?_toString small]

/-- Texts read alike where they have the same characters. -/
lemma getMember_eq_iff {text text' : String} {k k' : Nat} (inside : k < text.length)
    (inside' : k' < text'.length) (small : k < 2 ^ 64) (small' : k' < 2 ^ 64) :
    s.getMember (.string text) (toString k) = s.getMember (.string text') (toString k') ↔
      text.toList[k]? = text'.toList[k']? := by
  rw [← String.length_toList] at inside inside'
  rw [s.getMember_string text small, s.getMember_string text' small',
    List.getElem?_eq_getElem inside, List.getElem?_eq_getElem inside']
  simp [Char.toString_eq_singleton]

end Store

namespace Machine

/-- `indexOf` gives the first place from which on a text has the characters of another, or `-1`
where there is no such place. The length of a text counts its characters too, and an index reads
one of them as a text of its own; so they are the texts that are read alike. -/
theorem indexOf_first_place (m : Machine) (text needle : String) :
    let reads (t : String) (k : Nat) := m.store.getMember (.string t) (toString k)
    let found := m.callBuiltin ⟨.string .indexOf, some (.string text)⟩ [.string needle]
    let stands (k : Nat) := k + needle.length ≤ text.length ∧
      ∀ j < needle.length, text.toList[k + j]? = needle.toList[j]?
    m.store.getMember (.string text) "indexOf" = .ok (.method (.string .indexOf)) ∧
    m.store.getMember (.string text) "length" =
      .ok (.plain (.number (Float.ofNat text.toList.length))) ∧
    (∀ k < 2 ^ 64, ∀ inside : k < text.toList.length,
      reads text k = .ok (.plain (.string (String.ofList [text.toList[k]])))) ∧
    ((∃ k, IsLeast {k | stands k} k ∧ found = m.give (.number (Float.ofNat k))) ∨
      (∀ k, ¬ stands k) ∧ found = m.give (.number (-1))) ∧
    (text.length ≤ 2 ^ 64 → ∀ k, stands k ↔ k + needle.length ≤ text.length ∧
      ∀ j < needle.length, reads text (k + j) = reads needle j) := by
  intro reads found stands
  have stands_iff (k : Nat) : stands k ↔ StandsAt needle.toList text.toList k := by
    rw [StandsAt.iff_getElem?, String.length_toList, String.length_toList]
  have set_eq : {k | stands k} = {k | StandsAt needle.toList text.toList k} :=
    Set.ext stands_iff
  refine ⟨rfl, rfl, fun k small inside => ?_, ?_, fun short k => ?_⟩
  · have read := m.store.getMember_string text small
    rw [List.getElem?_eq_getElem inside] at read
    exact read
  · have search : found = m.give
        ((findText? needle text).elim (.number (-1)) fun i => .number (Float.ofNat i)) := by
      have display : m.store.display (argument [.string needle] 0) = needle := rfl
      simp only [found, callBuiltin, Store.callStringMethod, display]
      cases findText? needle text <;> rfl
    rcases findText?_spec needle text with ⟨k, place, least⟩ | ⟨missing, none⟩
    · exact .inl ⟨k, set_eq ▸ least, by rw [search, place]; rfl⟩
    · exact .inr ⟨fun k hk => none k ((stands_iff k).mp hk), by rw [search, missing]; rfl⟩
  · refine and_congr_right fun fits => forall₂_congr fun j hj => ?_
    exact (m.store.getMember_eq_iff (by omega) hj (by omega) (by omega)).symm

/-- Two characters that stand behind three others, which take seven bytes. -/
theorem indexOf_wide_characters :
    let m : Machine := ⟨.empty, .empty 1, "", .done, []⟩
    m.store.getMember (.string "aé😀ñb") (toString 3) = .ok (.plain (.string "ñ")) ∧
    m.store.getMember (.string "aé😀ñb") (toString 4) =
      m.store.getMember (.string "ñb") (toString 1) ∧
    m.callBuiltin ⟨.string .indexOf, some (.string "aé😀ñb")⟩ [.string "ñb"] =
      m.give (.number (Float.ofNat 3)) := by
  intro m
  obtain ⟨-, -, reads, found, alike⟩ := indexOf_first_place m "aé😀ñb" "ñb"
  have here : 3 + "ñb".length ≤ "aé😀ñb".length ∧
      ∀ j < "ñb".length, "aé😀ñb".toList[3 + j]? = "ñb".toList[j]? := by decide
  refine ⟨reads 3 (by decide) (by decide), ?_, ?_⟩
  · exact ((alike (by decide) 3).mp here).2 1 (by decide)
  · rcases found with ⟨k, ⟨stands, least⟩, found⟩ | ⟨none, -⟩
    · have early : k ≤ 3 := least here
      have later : ∀ k < 3, ¬ (k + "ñb".length ≤ "aé😀ñb".length ∧
          ∀ j < "ñb".length, "aé😀ñb".toList[k + j]? = "ñb".toList[j]?) := by decide
      have third : k = 3 :=
        Nat.le_antisymm early (Nat.le_of_not_lt fun before => later k before stands)
      rw [found, third]
    · exact absurd here (none 3)

end Machine

end ScriptDebugger
