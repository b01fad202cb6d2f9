import Mathlib.Order.Nat
import ScriptDebugger.Proofs.Syntax.Located

/-!
# The statement for a line

From a line on, `Tree.locate` goes to the first line on which a node starts and
takes the innermost statement around the first node, in post-order, that starts
there (`locate_exact`). That statement starts on the line as well, unless a part
of a statement from further up stands there in front of all that start there
(`locate_starting_line`).
-/

namespace ScriptDebugger.Tree

variable {t : Tree} {text : String} {options : ParseOptions}

/-- The lines from `n` on, counted from 1, on which a node starts. -/
def startLines (t : Tree) (n : Nat) : Set Nat := {l | max n 1 ≤ l ∧ ∃ id, t.startsOn l id = true}

/-- A part of a statement that starts on an earlier line starts on `line`, and stops before any
statement starts there. -/
def Continues (t : Tree) (line : Nat) : Prop :=
  ∃ p u, t.startsOn line p = true ∧ t.Innermost u p ∧ (∃ l < line, t.startsOn l u = true) ∧
    ∀ x, t.isStatement x = true → t.startsOn line x = true → (t.span p).stop ≤ (t.span x).start

lemma exists_isLeast {n line : Nat} (h : line ∈ t.startLines n) :
    ∃ first, IsLeast (t.startLines n) first := by
  classical exact ⟨_, Nat.isLeast_find ⟨line, h⟩⟩

/-- The first line that a node starts on is the first one from any line up to it. -/
lemma isLeast_startLines {n m line : Nat} (least : IsLeast (t.startLines n) line) (hn : n ≤ m)
    (hm : m ≤ line) : IsLeast (t.startLines m) line := by
  obtain ⟨⟨low, id, starts⟩, lower⟩ := least
  refine ⟨⟨by omega, id, starts⟩, fun l hl => lower ⟨?_, hl.2⟩⟩
  have := hl.1
  omega

/-- The lines are gone through up to one that a node starts on. -/
lemma firstStarting?_range' {first line n count : Nat}
    (found : t.postOrder.find? (t.startsOn line) = some first)
    (before : ∀ l, n ≤ l → l < line → ∀ id, t.startsOn l id = false)
    (low : n ≤ line) (high : line < n + count) :
    t.firstStarting? (List.range' n count) = some first := by
  induction count generalizing n with
  | zero => omega
  | succ count ih =>
    rw [firstStarting?, List.range'_succ, List.findSome?_cons]
    by_cases here : n = line
    · rw [here, found]
    · have none : t.postOrder.find? (t.startsOn n) = none :=
        List.find?_eq_none.mpr fun id _ => by simp [before n (Nat.le_refl n) (by omega) id]
      rw [none]
      exact ih (fun l hl => before l (by omega)) (by omega) (by omega)

lemma firstStarting?_eq_none {lines : List Nat}
    (clear : ∀ l ∈ lines, ∀ id, t.startsOn l id = false) : t.firstStarting? lines = none := by
  refine List.findSome?_eq_none_iff.mpr fun l hl => ?_
  exact List.find?_eq_none.mpr fun id _ => by simp [clear l hl id]

namespace LaidOut

variable (h : t.LaidOut text)
include h

lemma exists_first {line id : Nat} (starts : t.startsOn line id = true) :
    ∃ first, t.postOrder.find? (t.startsOn line) = some first := by
  have listed : id ∈ t.postOrder := by
    rw [h.postOrder_eq]
    exact List.mem_range.mpr (h.startsOn_iff.mp starts).1
  exact Option.isSome_iff_exists.mp (List.find?_isSome.mpr ⟨id, listed, starts⟩)

/-- No node that starts on a line comes before the first one. -/
lemma first_le {line first id : Nat} (found : t.postOrder.find? (t.startsOn line) = some first)
    (starts : t.startsOn line id = true) : first ≤ id := by
  by_contra hlt
  rw [h.postOrder_eq] at found
  have clear := (List.find?_range_eq_some.mp found).2.2 id (Nat.lt_of_not_le hlt)
  rw [starts] at clear
  cases clear

/-- None stops before the first one starts. -/
lemma start_lt_stop {line first id : Nat}
    (found : t.postOrder.find? (t.startsOn line) = some first)
    (starts : t.startsOn line id = true) : (t.span first).start < (t.span id).stop := by
  obtain ⟨inside, inner, -⟩ := h.startsOn_iff.mp starts
  obtain ⟨inside', inner', -⟩ := h.startsOn_iff.mp (List.find?_some found)
  have nonempty := h.nonempty id inside inner
  have nonempty' := h.nonempty first inside' inner'
  rcases Nat.lt_or_eq_of_le (h.first_le found starts) with before | rfl
  · rcases h.apart first id before inside with within | apart
    · have := h.bounds first id within
      omega
    · omega
  · exact nonempty

/-- Around a node that starts on a line there is a statement. -/
lemma exists_statementOf {line id : Nat} (starts : t.startsOn line id = true) :
    ∃ s, t.statementOf id = some s := by
  obtain ⟨inside, inner, -⟩ := h.startsOn_iff.mp starts
  cases hs : t.statementOf id with
  | none =>
    rw [(h.wellFormed.statementOf_eq_none_iff inside).mp hs] at inner
    cases inner
  | some s => exact ⟨s, rfl⟩

/-- From a line on, the first line that a node starts on decides. -/
lemma locate_eq_statementOf {n line first : Nat} (least : IsLeast (t.startLines n) line)
    (found : t.postOrder.find? (t.startsOn line) = some first) :
    t.locate n = t.statementOf first := by
  obtain ⟨⟨low, id, starts⟩, lower⟩ := least
  obtain ⟨-, high⟩ := h.le_lastLine starts h.lastLine_eq
  have before : ∀ l, max n 1 ≤ l → l < line → ∀ id, t.startsOn l id = false := by
    intro l hl hlt id
    by_contra hid
    have := lower ⟨hl, id, Bool.not_eq_false _ ▸ hid⟩
    omega
  rw [locate, h.lastLine_eq]
  simp only [Option.bind_eq_bind, Option.bind_some]
  rw [firstStarting?_range' found before low (by omega), Option.bind_some]

/-- The statement for a line is the innermost one around the first node from there on. -/
lemma exists_located {n line : Nat} (least : IsLeast (t.startLines n) line) :
    ∃ first s, t.postOrder.find? (t.startsOn line) = some first ∧ t.locate n = some s ∧
      t.statementOf first = some s ∧ t.Innermost s first := by
  obtain ⟨id, starts⟩ := least.1.2
  obtain ⟨first, found⟩ := h.exists_first starts
  obtain ⟨s, hs⟩ := h.exists_statementOf (List.find?_some found)
  have located := h.locate_eq_statementOf least found
  exact ⟨first, s, found, located.trans hs, hs, h.wellFormed.innermost_of_statementOf hs⟩

/-- All the lines up to the first one that a node starts on have one statement. -/
lemma locate_eq_locate {n m line : Nat} (least : IsLeast (t.startLines n) line) (low : n ≤ m)
    (high : m ≤ line) : t.locate m = t.locate n := by
  obtain ⟨id, starts⟩ := least.1.2
  obtain ⟨first, found⟩ := h.exists_first starts
  rw [h.locate_eq_statementOf least found,
    h.locate_eq_statementOf (isLeast_startLines least low high) found]

lemma locate_eq_none {n : Nat} (clear : ∀ line, ¬ IsLeast (t.startLines n) line) :
    t.locate n = none := by
  rw [locate, h.lastLine_eq]
  simp only [Option.bind_eq_bind, Option.bind_some]
  rw [firstStarting?_eq_none, Option.bind_none]
  intro l hl id
  by_contra starts
  have low := (List.mem_range'_1.mp hl).1
  obtain ⟨line, least⟩ := exists_isLeast ⟨low, id, Bool.not_eq_false _ ▸ starts⟩
  exact clear line least

lemma mem_startLines {n line id : Nat} (low : n ≤ line) (starts : t.startsOn line id = true) :
    line ∈ t.startLines n := by
  have := (h.le_lastLine starts h.lastLine_eq).1
  exact ⟨by omega, id, starts⟩

/-- A line that a node starts on is the first one from itself on. -/
lemma isLeast_self {line id : Nat} (starts : t.startsOn line id = true) :
    IsLeast (t.startLines line) line :=
  ⟨h.mem_startLines (Nat.le_refl line) starts, fun _ hl => Nat.le_trans (Nat.le_max_left _ _) hl.1⟩

/-- Whether the statement starts on the line of its first part depends on what stands in front. -/
lemma startsOn_innermost_iff {line first s : Nat}
    (found : t.postOrder.find? (t.startsOn line) = some first) (innermost : t.Innermost s first) :
    t.startsOn line s = true ↔ ¬ t.Continues line := by
  have starts : t.startsOn line first = true := List.find?_some found
  constructor
  · rintro hs ⟨p, u, hp, -, -, front⟩
    have stops := front s innermost.statement hs
    have later := h.start_lt_stop found hp
    have around := (h.bounds first s innermost.within).1
    omega
  · intro front
    by_contra hs
    obtain ⟨l, hl⟩ := h.exists_line_of_innermost starts innermost
    have higher : l < line := by
      have := h.line_le_of_within innermost.within starts hl
      exact Nat.lt_of_le_of_ne this fun same => hs (same ▸ hl)
    refine front ⟨first, s, starts, innermost, ⟨l, higher, hl⟩, fun x hx here => ?_⟩
    -- a statement around the first node is around `s` as well, and starts further up
    have outside : ¬ t.Within first x := fun around => by
      have := h.line_le_of_within (innermost.innermost x hx around) hl here
      omega
    have before : first < x :=
      Nat.lt_of_le_of_ne (h.first_le found here) fun same => outside (same ▸ .self)
    exact (h.apart first x before (h.startsOn_iff.mp here).1).resolve_left outside

end LaidOut

/-- From `n` on, the first line on which a node starts decides: the statement for it is the
innermost one around the first node, in post-order, that starts there, and it is the statement for
all the lines from `n` to that one. With no such line there is no statement. -/
theorem locate_exact (locations : options.locations = true)
    (h : Tree.parse text options = .ok t) (n : Nat) :
    (∀ line, IsLeast (t.startLines n) line →
      (∃ first s, t.postOrder.find? (t.startsOn line) = some first ∧
        t.locate n = some s ∧ t.statementOf first = some s ∧ t.Innermost s first) ∧
      ∀ m, n ≤ m → m ≤ line → t.locate m = t.locate n) ∧
    ((∀ line, ¬ IsLeast (t.startLines n) line) → t.locate n = none) ∧
    ∀ line id, n ≤ line → t.startsOn line id = true → (t.locate n).isSome = true := by
  have laid := laidOut_of_parse locations h
  refine ⟨fun line least => ⟨laid.exists_located least, fun m low high => ?_⟩,
    laid.locate_eq_none, fun line id low starts => ?_⟩
  · exact laid.locate_eq_locate least low high
  · obtain ⟨first, least⟩ := exists_isLeast (laid.mem_startLines low starts)
    obtain ⟨-, s, -, located, -⟩ := laid.exists_located least
    rw [located]
    rfl

/-- In a call over three lines with a blank one, the line of the second argument decides for the
blank one, and the call is the statement for both. Behind the last line there is none. -/
theorem locate_exact_blank_line :
    ∃ t : Tree, Tree.parse "f(\n1,\n\n2);\nx;" = .ok t ∧ IsLeast (t.startLines 3) 4 ∧
      t.postOrder.find? (t.startsOn 4) = some 2 ∧ t.locate 3 = some 4 ∧ t.Innermost 4 2 ∧
      t.locate 4 = some 4 ∧ t.startsOn 5 5 = true ∧ (t.locate 3).isSome = true ∧
      (∀ line, ¬ IsLeast (t.startLines 6) line) ∧ t.locate 6 = none := by
  let text := "f(\n1,\n\n2);\nx;"
  let t := (Tree.parse text).toOption.getD default
  have parsed : Tree.parse text = .ok t := Tree.parse_of_isSome (by decide +kernel)
  have laid : t.LaidOut text := laidOut_of_parse rfl parsed
  have here : t.startsOn 4 2 = true := by decide +kernel
  have below : t.startsOn 5 5 = true := by decide +kernel
  have second : t.postOrder.find? (t.startsOn 4) = some 2 := by decide +kernel
  have last : t.lastLine = some 5 := by decide +kernel
  have blank : (List.range t.size).all (fun id => !t.startsOn 3 id) = true := by decide +kernel
  have least : IsLeast (t.startLines 3) 4 := by
    refine ⟨⟨by decide, 2, here⟩, fun l hl => ?_⟩
    obtain ⟨low, id, starts⟩ := hl
    rcases Nat.lt_or_ge l 4 with lt | le
    · obtain rfl : l = 3 := by omega
      have none := List.all_eq_true.mp blank id (List.mem_range.mpr (laid.startsOn_iff.mp starts).1)
      rw [starts] at none
      cases none
    · exact le
  have clear : ∀ line, ¬ IsLeast (t.startLines 6) line := by
    rintro line ⟨⟨low, id, starts⟩, -⟩
    have := (laid.le_lastLine starts last).2
    omega
  obtain ⟨decides, -, succeeds⟩ := locate_exact rfl parsed 3
  obtain ⟨⟨first, s, found, located, -, innermost⟩, same⟩ := decides 4 least
  obtain rfl : 2 = first := Option.some.inj (second.symm.trans found)
  have call : t.locate 4 = some 4 := by decide +kernel
  have hs : some s = some 4 := located.symm.trans ((same 4 (by decide) (by decide)).symm.trans call)
  obtain rfl : s = 4 := Option.some.inj hs
  exact ⟨t, parsed, least, second, located, innermost, call, below, succeeds 5 5 (by decide) below,
    clear, (locate_exact rfl parsed 6).2.1 clear⟩

/-- The statement for a line on which a node starts holds a node that starts there, and starts
there or further up. It starts there unless a part of a statement from further up stands in front
of all the statements that start there. -/
theorem locate_starting_line (locations : options.locations = true)
    (h : Tree.parse text options = .ok t) {line id : Nat} (starts : t.startsOn line id = true) :
    ∃ s, t.locate line = some s ∧ t.isStatement s = true ∧
      (∃ p, t.startsOn line p = true ∧ t.Innermost s p) ∧
      (∃ l ≤ line, t.startsOn l s = true) ∧
      (t.startsOn line s = true ↔ ¬ t.Continues line) := by
  have laid := laidOut_of_parse locations h
  obtain ⟨first, s, found, located, -, innermost⟩ := laid.exists_located (laid.isLeast_self starts)
  have here : t.startsOn line first = true := List.find?_some found
  obtain ⟨l, hl⟩ := laid.exists_line_of_innermost here innermost
  exact ⟨s, located, innermost.statement, ⟨first, here, innermost⟩,
    ⟨l, laid.line_le_of_within innermost.within here hl, hl⟩,
    laid.startsOn_innermost_iff found innermost⟩

/-- The line of a statement that a sum ends in front of belongs to the sum, the next one to the
statement that starts there. -/
theorem locate_starting_line_sum_in_front :
    ∃ t : Tree, Tree.parse "a +\nb; c;\nd;" = .ok t ∧
      t.startsOn 2 5 = true ∧ t.locate 2 = some 3 ∧ t.startsOn 2 3 = false ∧ t.Continues 2 ∧
      t.startsOn 3 7 = true ∧ t.locate 3 = some 7 ∧ ¬ t.Continues 3 := by
  let text := "a +\nb; c;\nd;"
  let t := (Tree.parse text).toOption.getD default
  have parsed : Tree.parse text = .ok t := Tree.parse_of_isSome (by decide +kernel)
  have second : t.startsOn 2 5 = true := by decide +kernel
  have third : t.startsOn 3 7 = true := by decide +kernel
  have sum : t.locate 2 = some 3 ∧ t.startsOn 2 3 = false := by decide +kernel
  have own : t.locate 3 = some 7 := by decide +kernel
  obtain ⟨s, located, -, -, -, starts⟩ := locate_starting_line rfl parsed second
  obtain ⟨s', located', -, -, -, starts'⟩ := locate_starting_line rfl parsed third
  obtain rfl : 3 = s := Option.some.inj (sum.1.symm.trans located)
  obtain rfl : 7 = s' := Option.some.inj (own.symm.trans located')
  have continues : t.Continues 2 := by
    by_contra none
    rw [sum.2] at starts
    cases starts.mpr none
  exact ⟨t, parsed, second, sum.1, sum.2, continues, third, own, starts'.mp third⟩

/-- A statement starts on the second line, and the statement for that line is one that starts on
the first. -/
theorem locate_continued_line :
    ∃ t : Tree, Tree.parse "a +\nb; c;" = .ok t ∧
      t.isStatement 5 = true ∧ t.startsOn 2 5 = true ∧
      t.locate 2 = some 3 ∧ t.startsOn 1 3 = true ∧ t.startsOn 2 3 = false := by
  let text := "a +\nb; c;"
  let t := (Tree.parse text).toOption.getD default
  have parsed : Tree.parse text = .ok t := Tree.parse_of_isSome (by decide +kernel)
  have statement : t.isStatement 5 = true ∧ t.startsOn 2 5 = true := by decide +kernel
  have located : t.locate 2 = some 3 ∧ t.startsOn 1 3 = true ∧ t.startsOn 2 3 = false := by
    decide +kernel
  exact ⟨t, parsed, statement.1, statement.2, located⟩

end ScriptDebugger.Tree
