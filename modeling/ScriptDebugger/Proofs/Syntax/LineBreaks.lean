import ScriptDebugger.Debugger.Breakpoint
import ScriptDebugger.Proofs.Source.Lines
import ScriptDebugger.Proofs.Syntax.Moved
import ScriptDebugger.Proofs.Token.Separated
import ScriptDebugger.Syntax.Parser

/-!
# Line breaks between tokens

A line table begins a new line after each line feed; the mark that a line break
stands before a token is set by carriage returns as well. So a marked token stands
on a later line than the token before it, unless only carriage returns are between
the two (`newline_begins_line`), and a carriage return alone may stand in for a
semicolon within a line (`carriage_return_within_line`).
-/

namespace ScriptDebugger

namespace LineTable

open LinePosition

lemma lineCount_ofChars (cs : List Char) : (ofChars cs).lineCount = cs.count '\n' + 1 := by
  have lines (start : Nat) : (linesFrom start cs).length = cs.count '\n' + 1 := by
    induction cs using lines_induction generalizing start with
    | line l hl => rw [linesFrom_line hl, count_line hl]; rfl
    | cons l rest hl ih => rw [linesFrom_lines hl, List.length_cons, ih, count_lines hl]
  exact lines 0

/-- An offset where a character begins stands one line below the line feeds before it. -/
lemma lineOfOffset_append (before rest : List Char) :
    (ofChars (before ++ rest)).lineOfOffset (byteLength before) = 1 + before.count '\n' := by
  have line := congrArg LinePosition.line (position_ofChars (before ++ rest) (byteLength before))
  rwa [takeBytes_append] at line

end LineTable

namespace Token

open LineTable

variable {text : String} {us vs : List Token} {t u : Token}

lemma stopAfter_concat (lo : Nat) (us : List Token) (t : Token) :
    stopAfter lo (us ++ [t]) = t.span.stop := by
  simp [stopAfter]

/-- Of two tokens next to each other, the lines are the same up to the line feeds between them. -/
lemma exists_gap_lines (lexed : ofText text = .ok (us ++ t :: u :: vs)) :
    ∃ before gap rest, GapBefore text.toList before gap rest t.span.stop u ∧
      (LineTable.ofText text).lineOfOffset t.span.stop = 1 + before.count '\n' ∧
      (LineTable.ofText text).lineOfOffset u.span.start =
        1 + before.count '\n' + gap.count '\n' := by
  rw [List.append_cons] at lexed
  obtain ⟨before, gap, rest, found⟩ := exists_gapBefore (d := []) lexed
  rw [List.nil_append, stopAfter_concat] at found
  have table : LineTable.ofText text = ofChars text.toList := rfl
  refine ⟨before, gap, rest, found, ?_, ?_⟩
  · rw [table, found.start_eq, found.text_eq, lineOfOffset_append]
  · rw [table, found.stop_eq, found.text_eq, ← List.append_assoc, lineOfOffset_append,
      List.count_append, Nat.add_assoc]

/-- A token is marked if it stands on a later line than the token before it, or if carriage returns
and no line feed are between them. Otherwise a statement that ends between the two for the mark is
followed by a token on a later line of the text. -/
theorem newline_begins_line (lexed : ofText text = .ok (us ++ t :: u :: vs)) :
    let lines := LineTable.ofText text
    let gap := sliceBytes text.toList t.span.stop u.span.start
    let carriageOnly := '\r' ∈ gap ∧ '\n' ∉ gap
    (u.newlineBefore = true ↔
      lines.lineOfOffset t.span.stop < lines.lineOfOffset u.span.start ∨ carriageOnly) ∧
    (lines.lineOfOffset t.span.stop < lines.lineOfOffset u.span.start ↔ '\n' ∈ gap) ∧
    ∀ c c', c.tokens = u :: vs → Grammar.endStatement c = .ok c' → c.at? .semicolon = false →
      c.at? .rightBrace = false → c.atEnd = false →
      c' = c ∧ (carriageOnly ∨ ∃ row < lines.lineCount,
        lines.lineOfOffset t.span.stop < row + 1 ∧ row + 1 = lines.lineOfOffset u.span.start) := by
  obtain ⟨before, gap, rest, found, first, second⟩ := exists_gap_lines lexed
  have later : 1 + before.count '\n' < 1 + before.count '\n' + gap.count '\n' ↔ '\n' ∈ gap := by
    rw [← List.count_pos_iff]
    omega
  have count : (LineTable.ofText text).lineCount =
      before.count '\n' + gap.count '\n' + rest.count '\n' + 1 := by
    have table : LineTable.ofText text = ofChars text.toList := rfl
    rw [table, lineCount_ofChars, found.text_eq, List.count_append, List.count_append,
      Nat.add_assoc _ (gap.count _)]
  simp only [found.slice_eq, first, second, later, found.newline_iff, count]
  refine ⟨by tauto, trivial, fun c c' tokens ends semicolon brace more => ?_⟩
  have newline : c.newlineBefore = u.newlineBefore := by
    simp only [Cursor.newlineBefore, Cursor.current, tokens]
  simp only [Grammar.endStatement, Grammar.mayEnd, semicolon, brace, more, newline,
    Bool.false_or, if_false, Bool.false_eq_true] at ends
  split at ends
  case isTrue marked =>
    cases ends
    refine ⟨rfl, ?_⟩
    by_cases feed : '\n' ∈ gap
    · have := List.count_pos_iff.mpr feed
      exact .inr ⟨before.count '\n' + gap.count '\n', by omega, by omega, by omega⟩
    · exact .inl ⟨(found.newline_iff.mp marked).resolve_left feed, feed⟩
  case isFalse =>
    simp only [Grammar.refuseArrow] at ends
    split at ends <;> cases ends

/-- A name, a line break of two characters, a comment in a line of its own and a second name. -/
theorem newline_begins_line_after_comment :
    let text := "a\r\n// c\nb"
    let lines := LineTable.ofText text
    ∃ t u v, ofText text = .ok [t, u, v] ∧ t.span.stop = 1 ∧ u.span.start = 8 ∧
      u.newlineBefore = true ∧
      (lines.lineOfOffset 1 < lines.lineOfOffset 8 ∨
        '\r' ∈ "\r\n// c\n".toList ∧ '\n' ∉ "\r\n// c\n".toList) ∧
      Grammar.endStatement ⟨[u, v], 1⟩ = .ok ⟨[u, v], 1⟩ ∧
      ∃ row < lines.lineCount, lines.lineOfOffset 1 < row + 1 ∧
        row + 1 = lines.lineOfOffset 8 := by
  intro text lines
  have marks : (ofText text).toOption.map (·.map fun t => (t.span, t.newlineBefore,
      [t.kind.isPunct .semicolon, t.kind.isPunct .rightBrace, t.kind.isEndOfInput])) =
        some [(⟨0, 1⟩, false, [false, false, false]), (⟨8, 9⟩, true, [false, false, false]),
          (⟨9, 9⟩, false, [false, false, true])] := by decide +kernel
  obtain ⟨ts, lexed, marks⟩ := exists_ofText marks
  obtain ⟨t, us, rfl, ht, marks⟩ := List.map_eq_cons_iff.mp marks
  obtain ⟨u, us, rfl, hu, marks⟩ := List.map_eq_cons_iff.mp marks
  obtain ⟨v, us, rfl, -, marks⟩ := List.map_eq_cons_iff.mp marks
  obtain rfl := List.map_eq_nil_iff.mp marks
  simp only [Prod.mk.injEq, List.cons.injEq] at ht hu
  have split : ofText text = .ok ([] ++ t :: u :: [v]) := lexed
  obtain ⟨marked, -, ended⟩ := newline_begins_line split
  have cut : sliceBytes text.toList 1 8 = "\r\n// c\n".toList := by decide +kernel
  have feed : '\n' ∈ "\r\n// c\n".toList := by decide
  simp only [ht.1, hu.1, cut] at marked ended
  have stops : Grammar.endStatement ⟨[u, v], 1⟩ = .ok ⟨[u, v], 1⟩ := by
    simp [Grammar.endStatement, Grammar.mayEnd, Cursor.at?, Cursor.atEnd, Cursor.kind,
      Cursor.current, Cursor.newlineBefore, hu.2]
  obtain ⟨-, row⟩ := ended ⟨[u, v], 1⟩ _ rfl stops hu.2.2.1 hu.2.2.2.1 hu.2.2.2.2.1
  refine ⟨t, u, v, lexed, by rw [ht.1], by rw [hu.1], hu.2.1, marked.mp hu.2.1, stops, ?_⟩
  exact row.resolve_left fun h => h.2 feed

/-- A carriage return alone ends the first of two statements that stand on one line. -/
theorem carriage_return_within_line :
    let text := "a\rb"
    let lines := LineTable.ofText text
    ∃ t u v, ofText text = .ok [t, u, v] ∧ u.newlineBefore = true ∧
      lines.lineOfOffset t.span.stop = 1 ∧ lines.lineOfOffset u.span.start = 1 ∧
      (Tree.parse text).toOption.map (fun t => t.statements.map fun id => t.startsOn 1 id) =
        some [true, true] := by
  intro text lines
  have marks : (ofText text).toOption.map (·.map fun t => (t.span, t.newlineBefore)) =
      some [(⟨0, 1⟩, false), (⟨2, 3⟩, true), (⟨3, 3⟩, false)] := by decide +kernel
  obtain ⟨ts, lexed, marks⟩ := exists_ofText marks
  obtain ⟨t, us, rfl, ht, marks⟩ := List.map_eq_cons_iff.mp marks
  obtain ⟨u, us, rfl, hu, marks⟩ := List.map_eq_cons_iff.mp marks
  obtain ⟨v, us, rfl, -, marks⟩ := List.map_eq_cons_iff.mp marks
  obtain rfl := List.map_eq_nil_iff.mp marks
  simp only [Prod.mk.injEq] at ht hu
  refine ⟨t, u, v, lexed, hu.2, ?_, ?_, by decide +kernel⟩
  · rw [ht.1]
    decide +kernel
  · rw [hu.1]
    decide +kernel

end Token

end ScriptDebugger
