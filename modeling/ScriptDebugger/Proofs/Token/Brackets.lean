import Mathlib.Data.List.Basic
import Mathlib.Tactic.Lemma
import ScriptDebugger.Token.Basic

/-!
# Brackets among tokens

Tokens are read from left to right with a stack of the closing brackets that are
still to come. They are balanced if every bracket meets its own kind and none is
left open.
-/

namespace ScriptDebugger

namespace Punct

/-- The bracket that closes one. -/
def closer? : Punct → Option Punct
  | leftParen => some rightParen
  | leftBrace => some rightBrace
  | leftBracket => some rightBracket
  | _ => none

def isCloser : Punct → Bool
  | rightParen | rightBrace | rightBracket => true
  | _ => false

def isBracket (p : Punct) : Bool := p.closer?.isSome || p.isCloser

end Punct

namespace TokenKind

/-- Reads one token with the closing brackets that are to come, the nearest first. -/
def nest : List Punct → TokenKind → Option (List Punct)
  | stack, punct p =>
    match p.closer? with
    | some q => some (q :: stack)
    | none =>
      if p.isCloser then
        match stack with
        | q :: stack => if q = p then some stack else none
        | [] => none
      else some stack
  | stack, _ => some stack

/-- Every bracket is closed, in its turn and by one of its kind. -/
def Balanced (ks : List TokenKind) : Prop := ks.foldlM nest [] = some []

instance (ks : List TokenKind) : Decidable (Balanced ks) :=
  inferInstanceAs (Decidable (_ = _))

variable {stack stack' deeper : List Punct} {k : TokenKind} {ks ls ms rs : List TokenKind}

lemma nest_append (h : nest stack k = some stack') :
    nest (stack ++ deeper) k = some (stack' ++ deeper) := by
  cases k with
  | punct p =>
    simp only [nest] at h ⊢
    split at h
    · cases h
      rfl
    · split at h
      · cases stack with
        | nil => cases h
        | cons q stack =>
          dsimp only at h
          split at h
          · cases h
            simp_all
          · cases h
      · cases h
        simp_all
  | _ =>
    cases h
    rfl

/-- What stands deeper in the stack is not looked at. -/
lemma foldlM_nest_append (h : ks.foldlM nest stack = some stack') :
    ks.foldlM nest (stack ++ deeper) = some (stack' ++ deeper) := by
  induction ks generalizing stack with
  | nil =>
    cases h
    rfl
  | cons k ks ih =>
    obtain ⟨next, first, rest⟩ := Option.bind_eq_some_iff.mp h
    rw [List.foldlM_cons, nest_append first]
    exact ih rest

/-- Balanced tokens leave every stack as it is. -/
lemma Balanced.foldlM_nest (h : Balanced ks) (stack : List Punct) :
    ks.foldlM nest stack = some stack :=
  foldlM_nest_append h

end TokenKind

end ScriptDebugger
