import Mathlib.Data.List.DropRight
import Mathlib.Data.Prod.Lex
import Mathlib.Order.Bounds.Defs
import ScriptDebugger.Proofs.Token.Moved
import ScriptDebugger.Source.LineTable

/-!
# Lines of a text

A text is a line, or a line with its line feed and the lines of the rest. By
induction along the lines, a table finds an offset behind the characters that
begin before it (`position_ofChars`), and what stands behind the first
characters of a text is found as many bytes into it as these take up
(`offsetOf_behind`).
-/

namespace ScriptDebugger

section LastPiece

variable {α : Type} {p : α → Bool} {as bs cs : List α} {a : α}

lemma rtakeWhile_append_of_forall (h : ∀ b ∈ bs, p b) :
    (as ++ bs).rtakeWhile p = as.rtakeWhile p ++ bs := by
  have back : ∀ b ∈ bs.reverse, p b := fun b hb => h b (List.mem_reverse.mp hb)
  rw [List.rtakeWhile, List.reverse_append, List.takeWhile_append_of_pos back,
    List.reverse_append, List.reverse_reverse, List.rtakeWhile]

lemma rtakeWhile_append_cons (h : ¬ p a) :
    (as ++ a :: bs).rtakeWhile p = bs.rtakeWhile p := by
  induction bs using List.reverseRecOn with
  | nil => rw [List.rtakeWhile_concat_neg p as a h, List.rtakeWhile_nil]
  | append_singleton bs b ih =>
    rw [← List.cons_append, ← List.append_assoc]
    by_cases hb : p b
    · rw [List.rtakeWhile_concat_pos p _ b hb, ih, List.rtakeWhile_concat_pos p _ b hb]
    · rw [List.rtakeWhile_concat_neg p _ b hb, List.rtakeWhile_concat_neg p _ b hb]

lemma not_mem_of_isPrefix (h : a ∉ as) (hp : bs <+: as) : a ∉ bs := fun mem => h (hp.subset mem)

end LastPiece

section Begun

variable {cs ds rest : List Char} {n : Nat}

lemma takeBytes_zero (cs : List Char) : takeBytes 0 cs = [] := by rw [takeBytes]

lemma takeBytes_cons (pos : 0 < n) (c : Char) (cs : List Char) :
    takeBytes n (c :: cs) = c :: takeBytes (n - c.utf8Size) cs := by
  cases n with
  | zero => omega
  | succ n => rfl

lemma takeBytes_isPrefix (n : Nat) (cs : List Char) : takeBytes n cs <+: cs := by
  fun_induction takeBytes with
  | case1 => exact List.nil_prefix
  | case2 => exact List.nil_prefix
  | case3 n c cs ih => exact List.cons_prefix_cons.mpr ⟨rfl, ih⟩

lemma length_takeBytes (n : Nat) (cs : List Char) :
    (takeBytes n cs).length = LineTable.charsBegun n cs := by
  fun_induction takeBytes with
  | case1 => simp [LineTable.charsBegun]
  | case2 => rfl
  | case3 n c cs ih => rw [List.length_cons, ih, LineTable.charsBegun]

lemma takeBytes_append_of_le (h : n ≤ byteLength ds) :
    takeBytes n (ds ++ rest) = takeBytes n ds := by
  induction ds generalizing n with
  | nil =>
    obtain rfl : n = 0 := Nat.le_zero.mp h
    rw [takeBytes, takeBytes]
  | cons d ds ih =>
    rw [byteLength_cons] at h
    cases n with
    | zero => rfl
    | succ n => rw [List.cons_append, takeBytes, takeBytes, ih (by omega)]

lemma takeBytes_append_add (n : Nat) (ds rest : List Char) :
    takeBytes (byteLength ds + n) (ds ++ rest) = ds ++ takeBytes n rest := by
  induction ds with
  | nil => rw [show byteLength [] = 0 from rfl, Nat.zero_add, List.nil_append, List.nil_append]
  | cons d ds ih =>
    have pos := d.utf8Size_pos
    rw [byteLength_cons, List.cons_append, takeBytes_cons (by omega)]
    have left : d.utf8Size + byteLength ds + n - d.utf8Size = byteLength ds + n := by omega
    rw [left, ih, List.cons_append]

lemma takeBytes_mono {m : Nat} (h : n ≤ m) (cs : List Char) :
    takeBytes n cs <+: takeBytes m cs := by
  induction cs generalizing n m with
  | nil => cases n <;> exact List.nil_prefix
  | cons c cs ih =>
    cases n with
    | zero => exact List.nil_prefix
    | succ n =>
      rw [takeBytes, takeBytes_cons (by omega)]
      exact List.cons_prefix_cons.mpr ⟨rfl, ih (by omega)⟩

/-- Past a line feed. -/
lemma takeBytes_lines (n : Nat) (l rest : List Char) :
    takeBytes (byteLength l + 1 + n) (l ++ '\n' :: rest) = l ++ '\n' :: takeBytes n rest := by
  have feed : byteLength l + 1 = byteLength (l ++ ['\n']) := by
    rw [byteLength_append]
    rfl
  have whole : l ++ '\n' :: rest = (l ++ ['\n']) ++ rest := by simp
  rw [feed, whole, takeBytes_append_add, ← List.append_cons]

lemma takeBytes_of_byteLength_le (h : byteLength cs ≤ n) : takeBytes n cs = cs := by
  have all := takeBytes_append_add (n - byteLength cs) cs []
  rw [List.append_nil, Nat.add_sub_cancel' h] at all
  rw [all]
  cases n - byteLength cs <;> simp [takeBytes]

end Begun

/-- A text is a line, or begins with a line and its line feed. -/
theorem lines_induction {motive : List Char → Prop} (line : ∀ l, '\n' ∉ l → motive l)
    (cons : ∀ l rest, '\n' ∉ l → motive rest → motive (l ++ '\n' :: rest)) (cs : List Char) :
    motive cs := by
  induction hn : cs.length using Nat.strongRecOn generalizing cs with
  | ind n ih =>
    by_cases h : '\n' ∈ cs
    · obtain ⟨l, rest, rfl, hl⟩ := List.eq_append_cons_of_mem h
      rw [List.length_append, List.length_cons] at hn
      exact cons l rest hl (ih rest.length (by omega) rest rfl)
    · exact line cs h

namespace LinePosition

/-- The position behind the first characters of a text. -/
def behind (before : List Char) : LinePosition :=
  { line := 1 + before.count '\n', column := (before.rtakeWhile (· ≠ '\n')).length }

/-- By line, then by column. -/
def lex (p : LinePosition) : ℕ ×ₗ ℕ := toLex (p.line, p.column)

lemma rtakeWhile_line {l : List Char} (h : '\n' ∉ l) : l.rtakeWhile (· ≠ '\n') = l := by
  refine List.rtakeWhile_eq_self_iff.mpr fun c hc => ?_
  have : c ≠ '\n' := fun heq => h (heq ▸ hc)
  simpa using this

lemma rtakeWhile_lines (l rest : List Char) :
    (l ++ '\n' :: rest).rtakeWhile (· ≠ '\n') = rest.rtakeWhile (· ≠ '\n') :=
  rtakeWhile_append_cons (by simp)

lemma count_line {l : List Char} (h : '\n' ∉ l) : l.count '\n' = 0 := List.count_eq_zero.mpr h

lemma count_lines {l : List Char} (h : '\n' ∉ l) (rest : List Char) :
    (l ++ '\n' :: rest).count '\n' = rest.count '\n' + 1 := by
  rw [List.count_append, count_line h, Nat.zero_add, List.count_cons_self]

/-- Behind more characters one stands further on. -/
lemma behind_le {cs ds : List Char} (h : cs <+: ds) : (behind cs).lex ≤ (behind ds).lex := by
  obtain ⟨more, rfl⟩ := h
  rw [lex, lex, Prod.Lex.toLex_le_toLex]
  simp only [behind, List.count_append]
  by_cases hmore : '\n' ∈ more
  · left
    have := List.count_pos_iff.mpr hmore
    omega
  · right
    have free : ∀ c ∈ more, (decide (c ≠ '\n')) = true := fun c hc =>
      decide_eq_true fun heq => hmore (heq ▸ hc)
    rw [count_line hmore, rtakeWhile_append_of_forall free, List.length_append]
    omega

end LinePosition

namespace LineTable

open LinePosition

/-- The lines of a text whose first byte is at `start`. -/
def linesFrom (start : Nat) (cs : List Char) : List SourceLine := splitLines start start [] cs

/-- The line of an offset, where `number` is that of the first line. -/
def lineIn (offset number : Nat) : List SourceLine → Nat × SourceLine
  | [] => (number, ⟨0, []⟩)
  | line :: rest => findLine offset number line rest

/-- Where an offset stands, where `number` is that of the first line. -/
def positionIn (offset number : Nat) (lines : List SourceLine) : LinePosition :=
  { line := (lineIn offset number lines).1
    column := charsBegun (offset - (lineIn offset number lines).2.start)
      (lineIn offset number lines).2.chars }

section Split

variable {l rest : List Char} {start offset : Nat} {current : List Char}

lemma splitLines_of_not_mem (h : '\n' ∉ l) :
    splitLines start offset current l = [⟨start, current.reverse ++ l⟩] := by
  induction l generalizing offset current with
  | nil => rw [splitLines, List.append_nil]
  | cons c l ih =>
    obtain ⟨hc, hl⟩ := not_or.mp (fun mem => h (List.mem_cons.mpr mem))
    simp only [splitLines, if_neg (Ne.symm hc), ih hl, List.reverse_cons, List.append_assoc,
      List.singleton_append]

lemma splitLines_append (h : '\n' ∉ l) :
    splitLines start offset current (l ++ '\n' :: rest) =
      ⟨start, current.reverse ++ l ++ ['\n']⟩ :: linesFrom (offset + byteLength l + 1) rest := by
  induction l generalizing offset current with
  | nil =>
    have feed : '\n'.utf8Size = 1 := by decide
    simp [splitLines, linesFrom, feed, byteLength]
  | cons c l ih =>
    obtain ⟨hc, hl⟩ := not_or.mp (fun mem => h (List.mem_cons.mpr mem))
    rw [List.cons_append, splitLines, if_neg (Ne.symm hc), ih hl, byteLength_cons]
    simp [Nat.add_assoc]

lemma linesFrom_line (h : '\n' ∉ l) : linesFrom start l = [⟨start, l⟩] :=
  splitLines_of_not_mem h

lemma linesFrom_lines (h : '\n' ∉ l) :
    linesFrom start (l ++ '\n' :: rest) =
      ⟨start, l ++ ['\n']⟩ :: linesFrom (start + byteLength l + 1) rest :=
  splitLines_append h

lemma exists_linesFrom (start : Nat) (cs : List Char) :
    ∃ chars lines, linesFrom start cs = ⟨start, chars⟩ :: lines := by
  induction cs using lines_induction with
  | line l h => exact ⟨l, [], linesFrom_line h⟩
  | cons l rest h => exact ⟨_, _, linesFrom_lines h⟩

lemma lineIn_lines (h : '\n' ∉ l) (offset number : Nat) :
    lineIn offset number (linesFrom start (l ++ '\n' :: rest)) =
      if start + byteLength l + 1 ≤ offset then
        lineIn offset (number + 1) (linesFrom (start + byteLength l + 1) rest)
      else (number, ⟨start, l ++ ['\n']⟩) := by
  rw [linesFrom_lines h]
  obtain ⟨chars, lines, hlines⟩ := exists_linesFrom (start + byteLength l + 1) rest
  rw [hlines, lineIn, findLine, lineIn]

end Split

/-- An offset stands behind the characters that begin before it. -/
theorem positionIn_linesFrom (cs : List Char) {start offset : Nat} (number : Nat)
    (h : start ≤ offset) :
    positionIn offset number (linesFrom start cs) =
      { line := number + (takeBytes (offset - start) cs).count '\n'
        column := ((takeBytes (offset - start) cs).rtakeWhile (· ≠ '\n')).length } := by
  induction cs using lines_induction generalizing start number with
  | line l hl =>
    have free := not_mem_of_isPrefix hl (takeBytes_isPrefix (offset - start) l)
    have single : lineIn offset number [⟨start, l⟩] = (number, ⟨start, l⟩) := rfl
    rw [positionIn, linesFrom_line hl, single, count_line free, rtakeWhile_line free,
      length_takeBytes, Nat.add_zero]
  | cons l rest hl ih =>
    rw [positionIn, lineIn_lines hl]
    by_cases within : start + byteLength l + 1 ≤ offset
    · -- the whole line begins before the offset
      have past : offset - start = byteLength l + 1 + (offset - (start + byteLength l + 1)) := by
        omega
      have after := ih (number + 1) within
      rw [positionIn] at after
      rw [if_pos within, after, past, takeBytes_lines, count_lines hl, rtakeWhile_lines]
      congr 1
      omega
    · have short : offset - start ≤ byteLength l := by omega
      have free := not_mem_of_isPrefix hl (takeBytes_isPrefix (offset - start) l)
      rw [if_neg within, takeBytes_append_of_le short, count_line free, rtakeWhile_line free]
      congr 1
      rw [← length_takeBytes, takeBytes_append_of_le short]

lemma lineAt_ofChars (cs : List Char) (offset : Nat) :
    (ofChars cs).lineAt offset = lineIn (min offset (byteLength cs)) 1 (linesFrom 0 cs) := by
  obtain ⟨chars, lines, hlines⟩ := exists_linesFrom 0 cs
  have own : (ofChars cs).lines = ⟨0, chars⟩ :: lines := hlines
  rw [lineAt, own, hlines, lineIn]
  rfl

theorem position_ofChars (cs : List Char) (offset : Nat) :
    (ofChars cs).position offset = behind (takeBytes offset cs) := by
  have clamped : takeBytes (min offset (byteLength cs)) cs = takeBytes offset cs := by
    rcases Nat.le_total offset (byteLength cs) with inside | past
    · rw [Nat.min_eq_left inside]
    · rw [Nat.min_eq_right past, takeBytes_of_byteLength_le (Nat.le_refl _),
        takeBytes_of_byteLength_le past]
  have found : (ofChars cs).position offset =
      positionIn (min offset (byteLength cs)) 1 (linesFrom 0 cs) := by
    rw [position, lineAt_ofChars]
    rfl
  rw [found, positionIn_linesFrom cs 1 (Nat.zero_le _), Nat.sub_zero, clamped, behind]

lemma one_le_line (cs : List Char) (offset : Nat) : 1 ≤ ((ofChars cs).position offset).line := by
  rw [position_ofChars, behind]
  exact Nat.le_add_right _ _

/-- A greater offset stands further on. -/
lemma position_mono (cs : List Char) {o o' : Nat} (h : o ≤ o') :
    ((ofChars cs).position o).lex ≤ ((ofChars cs).position o').lex := by
  rw [position_ofChars, position_ofChars]
  exact behind_le (takeBytes_mono h cs)

lemma line_mono (cs : List Char) {o o' : Nat} (h : o ≤ o') :
    ((ofChars cs).position o).line ≤ ((ofChars cs).position o').line := by
  have mono := position_mono cs h
  rw [lex, lex, Prod.Lex.toLex_le_toLex] at mono
  omega

end LineTable

end ScriptDebugger
