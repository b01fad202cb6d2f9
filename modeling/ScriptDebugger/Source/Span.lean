/-!
# Byte spans

A span is a half-open range of byte offsets into a source text. Offsets are
natural numbers; the largest offset a source may reach is `Span.maxOffset`,
and `Span.ofRange?` is where that limit is checked. `sliceBytes` cuts a text
at byte offsets without leaving the list of its characters.
-/

namespace ScriptDebugger

/-- Number of bytes that the UTF-8 form of `cs` takes. -/
def byteLength (cs : List Char) : Nat :=
  cs.foldl (fun n c => n + c.utf8Size) 0

/-- Drops the characters that begin before byte `n`. -/
def dropBytes : Nat → List Char → List Char
  | 0, cs => cs
  | _ + 1, [] => []
  | n + 1, c :: cs => dropBytes (n + 1 - c.utf8Size) cs

/-- Keeps the characters that begin before byte `n`. -/
def takeBytes : Nat → List Char → List Char
  | 0, _ => []
  | _ + 1, [] => []
  | n + 1, c :: cs => c :: takeBytes (n + 1 - c.utf8Size) cs

/-- The characters that begin at a byte from `start` up to and excluding `stop`. -/
def sliceBytes (cs : List Char) (start stop : Nat) : List Char :=
  takeBytes (stop - start) (dropBytes start cs)

/-- The bytes from `start` up to and excluding `stop`. -/
structure Span where
  start : Nat
  stop : Nat
  deriving DecidableEq, Repr, Inhabited

namespace Span

/-- The largest offset a span may hold. -/
def maxOffset : Nat := UInt32.size - 1

/-- Why a range is no span. -/
inductive RangeError where
  | startTooLarge (offset : Nat)
  | stopTooLarge (offset : Nat)
  deriving DecidableEq, Repr

def RangeError.message : RangeError → String
  | .startTooLarge n => s!"span start {n} exceeds u32::MAX"
  | .stopTooLarge n => s!"span end {n} exceeds u32::MAX"

/-- Both ends are checked, the start first; their order is not. -/
def ofRange? (start stop : Nat) : Except RangeError Span :=
  if maxOffset < start then .error (.startTooLarge start)
  else if maxOffset < stop then .error (.stopTooLarge stop)
  else .ok ⟨start, stop⟩

/-- The span of no byte, before `offset`. -/
def point (offset : Nat) : Span := ⟨offset, offset⟩

def length (s : Span) : Nat := s.stop - s.start

def isEmpty (s : Span) : Bool := s.start == s.stop

def contains (s : Span) (offset : Nat) : Bool :=
  decide (s.start ≤ offset ∧ offset < s.stop)

/-- Whether `inner` lies within `s`. -/
def encloses (s inner : Span) : Bool :=
  decide (s.start ≤ inner.start ∧ inner.stop ≤ s.stop)

/-- The least span that encloses both. -/
def merge (a b : Span) : Span := ⟨min a.start b.start, max a.stop b.stop⟩

def toText (s : Span) : String := s!"{s.start}..{s.stop}"

/-- The part of a text that a span covers. -/
def slice (s : Span) (text : String) : String :=
  String.ofList (sliceBytes text.toList s.start s.stop)

theorem encloses_merge_left (a b : Span) : (a.merge b).encloses a = true := by
  unfold encloses merge
  exact decide_eq_true ⟨Nat.min_le_left _ _, Nat.le_max_left _ _⟩

theorem encloses_merge_right (a b : Span) : (a.merge b).encloses b = true := by
  unfold encloses merge
  exact decide_eq_true ⟨Nat.min_le_right _ _, Nat.le_max_right _ _⟩

end Span

end ScriptDebugger
