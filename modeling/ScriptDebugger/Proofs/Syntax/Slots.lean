import ScriptDebugger.Proofs.Syntax.Numbering
import ScriptDebugger.Proofs.Syntax.PhraseGrammar

/-!
# Slots

A child of a node stands in a slot: it has a role, and it has a context, which
says whether there is a function around it and whether there is a loop around it
within that function. A `return` needs the one, `break` and `continue` need the
other.
-/

namespace ScriptDebugger

namespace NodeKind

variable {α : Type}

/-- The body of a loop. -/
def loopBody? : NodeKind α → Option α
  | forStatement _ _ _ body | whileStatement _ body => some body
  | _ => none

/-- The body of a function. -/
def functionBody? : NodeKind α → Option α
  | functionDeclaration _ _ body | functionExpression _ _ body => some body
  | _ => none

end NodeKind

namespace Grammar.Context

variable {α β : Type} (ctx : Context)

/-- The context of the body of a loop. -/
def loop : Context := { ctx with inLoop := true }

/-- Whether a node may stand in the context. -/
def allows : NodeKind α → Bool
  | .breakStatement | .continueStatement => ctx.inLoop
  | .returnStatement _ => ctx.inFunction
  | _ => true

/-- The context of a child. The name and the parameters of a function are outside of everything. -/
def ofChild (kind : NodeKind α) (r : NodeKind.Role) : Context :=
  match kind, r with
  | .functionDeclaration .., .body | .functionExpression .., .body => ⟨true, false⟩
  | .functionDeclaration .., _ | .functionExpression .., _ => ⟨false, false⟩
  | .forStatement .., .statement | .whileStatement .., .statement => ctx.loop
  | _, _ => ctx

/-- The contexts of the children. -/
def children (kind : NodeKind α) : List Context := kind.roles.map (ctx.ofChild kind)

section Fill

variable [Inhabited β] (kind : NodeKind α) (cs : List β)

@[simp] lemma allows_fill : ctx.allows (kind.fill cs) = ctx.allows kind := by
  cases kind <;> rfl

@[simp] lemma ofChild_fill (r : NodeKind.Role) :
    ctx.ofChild (kind.fill cs) r = ctx.ofChild kind r := by
  cases kind <;> cases r <;> rfl

lemma children_fill {kind : NodeKind α} {cs : List β}
    (h : cs.length = kind.children.length) : ctx.children (kind.fill cs) = ctx.children kind := by
  have same : ctx.ofChild (kind.fill cs) = ctx.ofChild kind := funext (ctx.ofChild_fill kind cs)
  rw [children, children, NodeKind.roles_fill h, same]

end Fill

end Grammar.Context

/-- What a child is for, and where it stands. -/
structure Slot where
  role : NodeKind.Role
  context : Grammar.Context

def Slot.admits {α : Type} (s : Slot) (kind : NodeKind α) : Bool :=
  s.role.admits kind && s.context.allows kind

/-- The slots of the children. -/
def Grammar.Context.slots {α : Type} (ctx : Grammar.Context) (kind : NodeKind α) : List Slot :=
  kind.roles.map fun r => ⟨r, ctx.ofChild kind r⟩

/-- A phrase that may stand in a slot, as do its sub-phrases in theirs. -/
inductive Phrase.FitsIn : Slot → Phrase → Prop
  | mk {s : Slot} {p : Phrase} (admits : s.admits p.kind = true)
    (children : List.Forall₂ Phrase.FitsIn (s.context.slots p.kind) p.children) : Phrase.FitsIn s p

namespace Phrase

/-- What fits in a slot fits in its role. -/
lemma FitsIn.fits {s : Slot} {p : Phrase} (h : p.FitsIn s) : p.Fits s.role := by
  induction p using induct generalizing s with
  | h p ih =>
    cases h with
    | mk admits children =>
      refine .mk (Bool.and_eq_true_iff.mp admits).1 ?_
      exact forall₂_imp_mem (List.forall₂_map_left_iff.mp children)
        fun _ _ c hc hfit => ih c hc hfit

lemma FitsIn.of_roles {r : NodeKind.Role} {ctx : Grammar.Context} {p : Phrase}
    (admits : (⟨r, ctx⟩ : Slot).admits p.kind = true)
    (children : List.Forall₂ (fun r c => FitsIn ⟨r, ctx.ofChild p.kind r⟩ c) p.kind.roles
      p.children) : FitsIn ⟨r, ctx⟩ p :=
  .mk admits (List.forall₂_map_left_iff.mpr children)

end Phrase

end ScriptDebugger
