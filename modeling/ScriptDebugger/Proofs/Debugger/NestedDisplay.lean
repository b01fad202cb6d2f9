import ScriptDebugger.Proofs.Debugger.Show
import ScriptDebugger.Proofs.Machine.Nested

/-!
# Showing outcomes of a script inside one function more

An outcome of a script and the same outcome with the store and the frames of one
function more are shown alike (`Session.showOutcome_nested`): the scope of the
function around the script binds nothing, values have the same texts, and the
offsets of the frames are moved back by what stands before the script.
-/

namespace ScriptDebugger

namespace FrameChain

variable {c : FrameChain}

lemma length_nested : c.nested.length = c.length := List.length_map _

lemma top?_nested : c.nested.top? = c.top?.map Frame.nested := List.head?_map

lemma Chained.nested (h : c.Chained) : c.nested.Chained := by
  intro i f hf
  rw [FrameChain.nested, List.getElem?_map, Option.map_eq_some_iff] at hf
  obtain ⟨g, hg, rfl⟩ := hf
  rw [length_nested]
  exact h i g hg

end FrameChain

namespace Editor

/-- The frames of a chain are drawn and listed alike where their nodes are the same and stand as
far behind the opening as they stand in the text. -/
lemma showTrace_nested (e : Editor) {t t' : Tree} {c : FrameChain} (chained : c.Chained)
    (openingLength : Nat)
    (nodes : ∀ f ∈ c.frames, t'.kind f.pc = t.kind f.pc ∧
      t'.span f.pc = (t.span f.pc).move (openingLength + 1 + ·))
    (headline : Headline) (markerClass : String) :
    e.showTrace t' c.nested (.wrapped openingLength) headline markerClass =
      e.showTrace t c .plain headline markerClass := by
  have places : c.nested.frames.map (e.placeOf t' (.wrapped openingLength)) =
      c.frames.map (e.placeOf t .plain) := by
    rw [FrameChain.nested, List.map_map]
    refine List.map_congr_left fun f hf => ?_
    obtain ⟨kind, span⟩ := nodes f hf
    simp only [Function.comp_apply, placeOf, Frame.nested, kind, span, rangeIn, positionIn,
      OffsetBase.unshift, Span.move, Nat.add_sub_cancel_left]
  have walk : c.walk c.length = c.frames := chained.walk (Nat.le_refl _)
  have walk' : c.nested.walk c.nested.length = c.nested.frames :=
    chained.nested.walk (Nat.le_refl _)
  simp only [showTrace, walk, walk', places]

end Editor

namespace Store

variable (n : Nesting) {s : Store}

lemma displayScope_nested (h : 1 ≤ s.scopes.size) (older : s.Older) (list : VariableList)
    (scope : ScopeId) :
    (s.nested n).displayScope list (nestedScope scope) globalScope =
      s.displayScope list scope globalScope := by
  have skips (list : VariableList) : ((s.nested n).scope 1).bindings.foldl
      (fun list b => list.set (some b.name) ((s.nested n).render b.value)) list = list := by
    rw [scope_nested_one n h]
    rfl
  have chain := foldl_chain_nested n h older (fun list id =>
    ((s.nested n).scope id).bindings.foldl
      (fun list b => list.set (some b.name) ((s.nested n).render b.value)) list) skips scope list
  simp only [scope_nested n h, Scope.nestedAt, List.foldl_map, Binding.nested, render_nested]
    at chain
  exact chain

end Store

def ThrownError.nested (e : ThrownError) : ThrownError := { e with value := e.value.nested }

lemma ThrownError.ofValue_nested (n : Nesting) (s : Store) (v : Value) :
    ofValue (s.nested n) v.nested = (ofValue s v).nested := by
  cases v with
  | error ref => rfl
  | _ => exact congrArg (ThrownError.mk _ "Uncaught") (s.display_nested n _)

def Outcome.nested : Outcome → Outcome
  | completed scope => completed (nestedScope scope)
  | halted reason frames => halted reason frames.nested
  | raised e frames => raised e.nested frames.nested

namespace Outcome

lemma scope?_nested (o : Outcome) : o.nested.scope? = o.scope?.map nestedScope := by
  cases o with
  | completed scope => rfl
  | halted reason frames =>
    simp only [nested, scope?, FrameChain.top?_nested, Option.map_map]
    rfl
  | raised e frames =>
    simp only [nested, scope?, FrameChain.top?_nested, Option.map_map]
    rfl

/-- The frames that an outcome comes with, if it comes with any. -/
def frames? : Outcome → Option FrameChain
  | completed _ => none
  | halted _ frames | raised _ frames => some frames

end Outcome

namespace Session

variable (d : Session)

lemma showFrames_nested {t t' : Tree} {c : FrameChain} (chained : c.Chained) (pos : 0 < c.length)
    (openingLength : Nat)
    (nodes : ∀ f ∈ c.frames, t'.kind f.pc = t.kind f.pc ∧
      t'.span f.pc = (t.span f.pc).move (openingLength + 1 + ·))
    (headline : Headline) :
    d.showFrames t' c.nested (.wrapped openingLength) headline =
      d.showFrames t c .plain headline := by
  have valid := chained.validate pos
  have valid' := chained.nested.validate (by rwa [FrameChain.length_nested])
  simp only [showFrames, valid, valid',
    d.editor.showTrace_nested chained openingLength nodes headline]

/-- An outcome is shown as it is shown of the script on its own. -/
theorem showOutcome_nested {i i' : Interpreter} (n : Nesting) (store : i'.store = i.store.nested n)
    (size : 1 ≤ i.store.scopes.size) (older : i.store.Older) (openingLength : Nat) (o : Outcome)
    (frames : ∀ c, o.frames? = some c → c.Chained ∧ 0 < c.length ∧
      ∀ f ∈ c.frames, i'.tree.kind f.pc = i.tree.kind f.pc ∧
        i'.tree.span f.pc = (i.tree.span f.pc).move (openingLength + 1 + ·)) :
    d.showOutcome i' o.nested (.wrapped openingLength) = d.showOutcome i o .plain := by
  simp only [showOutcome, Outcome.scope?_nested]
  cases scope : o.scope? with
  | none => rfl
  | some scope =>
    simp only [Option.map_some, store, Store.displayScope_nested n size older]
    cases o with
    | completed scope => rfl
    | halted reason c =>
      obtain ⟨chained, pos, nodes⟩ := frames c rfl
      simp only [Outcome.nested, showFrames_nested _ chained pos openingLength nodes]
    | raised e c =>
      obtain ⟨chained, pos, nodes⟩ := frames c rfl
      simp only [Outcome.nested, ThrownError.nested,
        showFrames_nested _ chained pos openingLength nodes]

end Session

end ScriptDebugger
