import ScriptDebugger.Value.Basic

/-!
# Call stacks and frames

The call stack holds one activation per running function, with a limit on
their number. A frame chain is a snapshot of it, innermost frame first; each
frame names its caller by its place in the chain. `FrameChain.validate` accepts
the chains whose links lead strictly outward, which a snapshot's do.
-/

namespace ScriptDebugger

structure Activation where
  /-- The node being evaluated. -/
  pc : NodeId
  /-- The innermost scope. -/
  scope : ScopeId
  /-- The function's name; the program and anonymous functions have none. -/
  name : Option String
  deriving DecidableEq, Repr, Inhabited

/-- Activations from the outermost to the innermost. -/
structure CallStack where
  activations : Array Activation
  maxDepth : Nat
  deriving Repr, Inhabited

structure Frame where
  pc : NodeId
  scope : ScopeId
  name : Option String
  /-- Place of the calling frame in the chain. -/
  parent : Option Nat
  deriving DecidableEq, Repr, Inhabited

structure FrameChain where
  frames : List Frame
  deriving DecidableEq, Repr, Inhabited

namespace CallStack

def empty (maxDepth : Nat) : CallStack := { activations := #[], maxDepth }

def depth (c : CallStack) : Nat := c.activations.size

/-- Adds an activation, unless the limit is reached. -/
def push? (c : CallStack) (a : Activation) : Option CallStack :=
  if c.activations.size < c.maxDepth then some { c with activations := c.activations.push a }
  else none

def pop (c : CallStack) : CallStack := { c with activations := c.activations.pop }

def top? (c : CallStack) : Option Activation := c.activations.back?

def modifyTop (c : CallStack) (f : Activation → Activation) : CallStack :=
  { c with activations := c.activations.modify (c.activations.size - 1) f }

def setPc (c : CallStack) (pc : NodeId) : CallStack := c.modifyTop fun a => { a with pc }

def setScope (c : CallStack) (scope : ScopeId) : CallStack := c.modifyTop fun a => { a with scope }

/-- Frames for activations from the innermost on, the first of which stands at `place`. -/
def framesFrom (place : Nat) : List Activation → List Frame
  | [] => []
  | a :: rest =>
    ⟨a.pc, a.scope, a.name, if rest.isEmpty then none else some (place + 1)⟩ ::
      framesFrom (place + 1) rest

/-- The snapshot of a call stack. -/
def capture (c : CallStack) : FrameChain := ⟨framesFrom 0 c.activations.toList.reverse⟩

end CallStack

namespace FrameChain

/-- Why a chain cannot be followed. -/
inductive ChainError where
  | empty
  | badParent (index parent length : Nat)
  deriving DecidableEq, Repr, Inhabited

def ChainError.message : ChainError → String
  | empty => "frame chain is empty"
  | badParent index parent length =>
    s!"frame {index} links to parent {parent} in a chain of {length}"

/-- The first link that does not lead outward within a chain of `length` frames. -/
def badLink? (length : Nat) : (index : Nat) → List Frame → Option ChainError
  | _, [] => none
  | index, f :: rest =>
    match f.parent with
    | some parent =>
      if parent ≤ index ∨ length ≤ parent then some (.badParent index parent length)
      else badLink? length (index + 1) rest
    | none => badLink? length (index + 1) rest

/-- A chain has frames, and each link leads strictly outward. -/
def validate (c : FrameChain) : Except ChainError Unit :=
  if c.frames.isEmpty then .error .empty
  else
    match badLink? c.frames.length 0 c.frames with
    | some e => .error e
    | none => .ok ()

def top? (c : FrameChain) : Option Frame := c.frames.head?

def length (c : FrameChain) : Nat := c.frames.length

/-- At most `limit` frames along the links from a place. -/
def walkFrom (c : FrameChain) : (limit : Nat) → Option Nat → List Frame
  | 0, _ => []
  | _ + 1, none => []
  | limit + 1, some place =>
    match c.frames[place]? with
    | some f => f :: c.walkFrom limit f.parent
    | none => []

/-- At most `limit` frames along the links from the innermost one. -/
def walk (c : FrameChain) (limit : Nat) : List Frame := c.walkFrom limit (some 0)

end FrameChain

end ScriptDebugger
