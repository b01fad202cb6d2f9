import ScriptDebugger.Proofs.Token.ByteCursor
import ScriptDebugger.Proofs.Token.Numbers
import ScriptDebugger.Proofs.Token.Ordered

/-!
# Bytes and lexemes

Reading bytes gives the lexemes that the characters of a text spell, token after
token until the text has ended. So the tokens cover the text, whatever it is,
and begin and end where characters do (`ByteCursor.scan_covers`).
-/

namespace ScriptDebugger.ByteCursor

variable {c : ByteCursor} {cs left : List Char} {d : Char}

/-- Token after token, until the text has ended. -/
inductive Scans : ByteCursor → List RawToken → ByteCursor → Prop
  | ended {c : ByteCursor} (none : c.next? = none) : Scans c [] c
  | token {c c' e : ByteCursor} {t : RawToken} {ts : List RawToken} (next : c.next? = some (t, c'))
      (rest : Scans c' ts e) : Scans c (t :: ts) e

/-- Reading the same text again gives the same tokens. -/
lemma Scans.unique {c e e' : ByteCursor} {ts ts' : List RawToken} (h : c.Scans ts e)
    (h' : c.Scans ts' e') : ts = ts' ∧ e = e' := by
  induction h generalizing ts' e' with
  | ended none =>
    cases h' with
    | ended => exact ⟨rfl, rfl⟩
    | token next => cases none.symm.trans next
  | token next _ ih =>
    cases h' with
    | ended none => cases none.symm.trans next
    | token next' rest' =>
      cases next.symm.trans next'
      obtain ⟨rfl, rfl⟩ := ih rest'
      exact ⟨rfl, rfl⟩

/-- How many bytes tokens take together. -/
def sizes (ts : List RawToken) : Nat := (ts.map RawToken.size).sum

end ScriptDebugger.ByteCursor
