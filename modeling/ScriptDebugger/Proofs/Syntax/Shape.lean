import ScriptDebugger.Proofs.Syntax.Allocation
import ScriptDebugger.Proofs.Syntax.Recognition
import ScriptDebugger.Proofs.Syntax.Slots
import ScriptDebugger.Proofs.Syntax.WellFormed

/-!
# Parsed trees are well-formed

Every derivation yields phrases that may stand where its goal puts them, in the
context that the goal gives them. So a text that parses gives a program and its
tree is well-formed.
-/

namespace ScriptDebugger

namespace Phrase

lemma FitsIn.statement_of_body {p : Phrase} {ctx : Grammar.Context} (h : p.FitsIn ⟨.body, ctx⟩) :
    p.FitsIn ⟨.statement, ctx⟩ := by
  cases h with
  | mk admits children =>
    refine .mk ?_ children
    cases hk : p.kind <;> rw [hk] at admits <;> first | rfl | cases admits

lemma FitsIn.forInit_of_expression {p : Phrase} {ctx : Grammar.Context}
    (h : p.FitsIn ⟨.expression, ctx⟩) : p.FitsIn ⟨.forInit, ctx⟩ := by
  cases h with
  | mk admits children =>
    refine .mk ?_ children
    cases hk : p.kind <;> rw [hk] at admits <;> first | rfl | cases admits

end Phrase

namespace Grammar

open Phrase

/-- What the phrases that a goal yields are for. -/
def Goal.role : Goal → NodeKind.Role
  | .assignment | .conditional | .operators _ | .operatorTail .. | .unary | .postfixed | .head
  | .accesses .. | .construction | .elements _ | .primary | .initializer | .parenthesized
  | .optional _ | .result => .expression
  | .properties => .property
  | .parameters => .name
  | .functionRest | .block _ => .body
  | .blockBody _ | .forStatement _ | .statement _ | .programBody => .statement
  | .declarators => .declarator
  | .declaration _ terminated => if terminated then .statement else .forInit
  | .forInit => .forInit

def Yield.FitsIn (s : Slot) : Yield → Prop
  | .one p => p.FitsIn s
  | .many ps => ∀ p ∈ ps, p.FitsIn s
  | .maybe o => ∀ p, o = some p → p.FitsIn s
  | .function ps b => (∀ p ∈ ps, p.FitsIn ⟨.name, ⟨false, false⟩⟩) ∧ b.FitsIn s

/-- Whether a goal is met in a context, with what is known of the phrase that it continues. -/
def Goal.At (ctx : Context) : Goal → Prop
  | .operatorTail _ p | .accesses _ p => p.FitsIn ⟨.expression, ctx⟩
  | .block c | .blockBody c | .forStatement c | .statement c => c = ctx
  | .functionRest => ⟨true, false⟩ = ctx
  | .programBody => ⟨false, false⟩ = ctx
  | _ => True

lemma fitsIn_bindingIdentifier {c c' : Cursor} {p : Phrase} (ctx : Context)
    (h : bindingIdentifier c = .ok (p, c')) : p.FitsIn ⟨.name, ctx⟩ := by
  unfold bindingIdentifier at h
  split at h <;> cases h
  exact .of_roles rfl .nil

lemma fitsIn_propertyName {c c' : Cursor} {p : Phrase} (ctx : Context)
    (h : propertyName c = .ok (p, c')) : p.FitsIn ⟨.name, ctx⟩ := by
  unfold propertyName at h
  split at h <;> cases h <;> exact .of_roles rfl .nil

lemma fitsIn_node {op : Infix} {l r : Phrase} {ctx : Context}
    (hl : l.FitsIn ⟨.expression, ctx⟩) (hr : r.FitsIn ⟨.expression, ctx⟩) :
    (op.node l r).FitsIn ⟨.expression, ctx⟩ := by
  cases op <;> exact .of_roles rfl (.cons hl (.cons hr .nil))

/-- The parameters of a function stand outside of it, its body inside. -/
lemma fitsIn_rest {ps : List Phrase} {b : Phrase} {inside : NodeKind.Role → Context}
    (name : inside .name = ⟨false, false⟩) (body : inside .body = ⟨true, false⟩)
    (hps : ∀ p ∈ ps, p.FitsIn ⟨.name, ⟨false, false⟩⟩) (hb : b.FitsIn ⟨.body, ⟨true, false⟩⟩) :
    List.Forall₂ (fun r (c : Phrase) => c.FitsIn ⟨r, inside r⟩)
      (List.replicate ps.length .name ++ [.body]) (ps ++ [b]) :=
  List.rel_append (forall₂_replicate.mpr (by rwa [name])) (.cons (by rwa [body]) .nil)

/-- Every derivation yields phrases that fit in their slots. -/
theorem Derives.fitsIn {d : Nat} {g : Goal} {c c' : Cursor} {y : Yield} (h : Derives d g c y c')
    {ctx : Context} (met : g.At ctx) : y.FitsIn ⟨g.role, ctx⟩ := by
  induction h generalizing ctx with
  | assignment_none _ _ ih => exact ih trivial
  | assignment _ _ _ _ left right =>
    exact .of_roles rfl (.cons (left trivial) (.cons (right trivial) .nil))
  | conditional_none _ _ ih => exact ih trivial
  | conditional _ _ _ _ _ test consequent alternate =>
    exact .of_roles rfl
      (.cons (test trivial) (.cons (consequent trivial) (.cons (alternate trivial) .nil)))
  | operators _ _ left tail => exact tail (left trivial)
  | operatorTail_none _ => exact met
  | operatorTail_weaker _ _ => exact met
  | operatorTail _ _ _ _ right tail => exact tail (fitsIn_node met (right trivial))
  | unary _ _ argument => exact .of_roles rfl (.cons (argument trivial) .nil)
  | unary_update _ _ _ _ argument => exact .of_roles rfl (.cons (argument trivial) .nil)
  | unary_postfixed _ _ _ ih => exact ih trivial
  | postfixed_none _ _ _ head chain => exact chain (head trivial)
  | postfixed _ _ _ _ _ head chain => exact .of_roles rfl (.cons (chain (head trivial)) .nil)
  | head_construction _ _ ih => exact ih trivial
  | head_primary _ _ ih => exact ih trivial
  | accesses_none _ _ _ => exact met
  | accesses_call _ _ _ _ arguments chain =>
    exact chain (.of_roles rfl (.cons met (forall₂_replicate.mpr (arguments trivial))))
  | accesses_dot _ _ name _ chain =>
    exact chain (.of_roles rfl (.cons met (.cons (fitsIn_propertyName _ name) .nil)))
  | accesses_bracket _ _ _ _ _ _ key chain =>
    exact chain (.of_roles rfl (.cons met (.cons (key trivial) .nil)))
  | construction_none _ _ _ head chain => exact .of_roles rfl (.cons (chain (head trivial)) .nil)
  | construction _ _ _ _ _ head chain arguments =>
    exact .of_roles rfl (.cons (chain (head trivial)) (forall₂_replicate.mpr (arguments trivial)))
  | elements_nil _ => exact List.forall_mem_nil _
  | elements_last _ _ _ first =>
    exact List.forall_mem_singleton.mpr (first trivial)
  | elements_cons _ _ _ _ first rest =>
    exact List.forall_mem_cons.mpr ⟨first trivial, rest trivial⟩
  | properties_nil _ => exact fun p hp => by cases hp
  | properties_last _ _ _ _ _ value =>
    exact List.forall_mem_singleton.mpr (.of_roles rfl (.cons (value trivial) .nil))
  | properties_cons _ _ _ _ _ _ value rest =>
    exact List.forall_mem_cons.mpr ⟨.of_roles rfl (.cons (value trivial) .nil), rest trivial⟩
  | primary_literal _ => exact .of_roles rfl .nil
  | primary_identifier _ _ => exact .of_roles rfl .nil
  | primary_paren _ _ _ _ inner => exact inner trivial
  | primary_array _ _ _ items => exact .of_roles rfl (forall₂_replicate.mpr (items trivial))
  | primary_object _ _ _ items => exact .of_roles rfl (forall₂_replicate.mpr (items trivial))
  | primary_function _ _ _ rest =>
    obtain ⟨params, body⟩ := rest rfl
    exact .of_roles rfl (fitsIn_rest rfl rfl params body)
  | primary_namedFunction _ _ _ rest =>
    obtain ⟨params, body⟩ := rest rfl
    exact .of_roles rfl (.cons (.of_roles rfl .nil) (fitsIn_rest rfl rfl params body))
  | parameters_nil _ => exact fun p hp => by cases hp
  | parameters_last _ first _ =>
    exact List.forall_mem_singleton.mpr (fitsIn_bindingIdentifier _ first)
  | parameters_cons _ first _ _ rest =>
    exact List.forall_mem_cons.mpr ⟨fitsIn_bindingIdentifier _ first, rest trivial⟩
  | functionRest _ _ _ _ params body => exact ⟨params trivial, body met⟩
  | block _ _ body => exact .of_roles rfl (forall₂_replicate.mpr (body met))
  | blockBody_nil _ => exact fun p hp => by cases hp
  | blockBody_cons _ _ _ _ first rest =>
    exact List.forall_mem_cons.mpr ⟨first met, rest met⟩
  | initializer_none _ => exact fun p hp => by cases hp
  | initializer _ _ value =>
    intro p hp
    cases hp
    exact value trivial
  | declarators_last name _ _ init =>
    exact List.forall_mem_singleton.mpr
      (.of_roles rfl (.cons (fitsIn_bindingIdentifier _ name) (forall₂_option.mpr (init trivial))))
  | declarators_cons name _ _ _ init rest =>
    exact List.forall_mem_cons.mpr
      ⟨.of_roles rfl (.cons (fitsIn_bindingIdentifier _ name) (forall₂_option.mpr (init trivial))),
        rest trivial⟩
  | @declaration _ _ terminated _ _ _ _ _ _ names =>
    cases terminated <;> exact .of_roles rfl (forall₂_replicate.mpr (names trivial))
  | parenthesized _ _ _ inner => exact inner trivial
  | optional_none _ => exact fun p hp => by cases hp
  | optional _ _ inner =>
    intro p hp
    cases hp
    exact inner trivial
  | forInit_declaration _ _ rest =>
    intro p hp
    cases hp
    exact rest trivial
  | @forInit _ _ y _ _ _ rest =>
    have fits : y.FitsIn ⟨.expression, ctx⟩ := rest trivial
    cases y with
    | maybe o => exact fun p hp => (fits p hp).forInit_of_expression
    | one p => exact fits.forInit_of_expression
    | many ps => exact fun p hp => (fits p hp).forInit_of_expression
    | function ps b => exact ⟨fits.1, fits.2.forInit_of_expression⟩
  | @forStatement _ _ _ i _ t _ u _ b _ _ _ _ _ _ _ _ _ _ init test update body =>
    let Part (r : NodeKind.Role) (p : Phrase) : Prop :=
      p.FitsIn ⟨r, ctx.ofChild (.forStatement i t u b : NodeKind Phrase) r⟩
    have head := List.rel_append (R := Part)
      (List.rel_append (R := Part) (forall₂_option.mpr (init trivial))
        (forall₂_option.mpr (test trivial)))
      (forall₂_option.mpr (update trivial))
    have last : List.Forall₂ Part [.statement] [b] := .cons (body (congrArg Context.loop met)) .nil
    exact .of_roles rfl (List.rel_append head last)
  | result_none _ => exact fun p hp => by cases hp
  | result _ _ rest => exact rest trivial
  | @statement_block _ _ _ y _ _ _ rest =>
    have fits : y.FitsIn ⟨.body, ctx⟩ := rest met
    cases y with
    | one p => exact fits.statement_of_body
    | many ps => exact fun p hp => (fits p hp).statement_of_body
    | maybe o => exact fun p hp => (fits p hp).statement_of_body
    | function ps b => exact ⟨fits.1, fits.2.statement_of_body⟩
  | statement_declaration _ _ rest => exact rest trivial
  | statement_function _ name _ rest =>
    obtain ⟨params, body⟩ := rest rfl
    exact .of_roles rfl
      (.cons (fitsIn_bindingIdentifier _ name) (fitsIn_rest rfl rfl params body))
  | statement_if _ _ _ _ test consequent =>
    exact .of_roles rfl (.cons (test trivial) (.cons (consequent met) .nil))
  | statement_ifElse _ _ _ _ _ test consequent alternate =>
    exact .of_roles rfl (.cons (test trivial)
      (.cons (consequent met) (.cons (alternate met) .nil)))
  | statement_for _ _ rest => exact rest met
  | statement_while _ _ _ test body =>
    exact .of_roles rfl (.cons (test trivial) (.cons (body (congrArg Context.loop met)) .nil))
  | statement_return _ legal _ _ argument =>
    cases met
    exact .of_roles legal (forall₂_option.mpr (argument trivial))
  | statement_throw _ _ _ _ argument => exact .of_roles rfl (.cons (argument trivial) .nil)
  | statement_break _ legal _ =>
    cases met
    exact .of_roles legal .nil
  | statement_continue _ legal _ =>
    cases met
    exact .of_roles legal .nil
  | statement_debugger _ _ => exact .of_roles rfl .nil
  | statement_empty _ => exact .of_roles rfl .nil
  | statement_expression _ _ _ expression => exact .of_roles rfl (.cons (expression trivial) .nil)
  | programBody_nil _ => exact fun p hp => by cases hp
  | programBody_cons _ _ _ first rest =>
    exact List.forall_mem_cons.mpr ⟨first met, rest met⟩

end Grammar

/-- The statements of a text that parses stand outside of functions and loops. -/
lemma Phrase.exists_body_of_parse {text : String} {p : Phrase} (h : Phrase.parse text = .ok p) :
    ∃ body, p.kind = .program body ∧ ∀ q ∈ body, q.FitsIn ⟨.statement, ⟨false, false⟩⟩ := by
  unfold Phrase.parse at h
  split at h
  · cases h
  · obtain ⟨body, c, hbody, rfl⟩ := Grammar.program_eq_ok.mp h
    exact ⟨body, rfl, hbody.fitsIn rfl⟩

/-- A text that parses is a program. -/
theorem Phrase.isProgram_of_parse {text : String} {p : Phrase} (h : Phrase.parse text = .ok p) :
    p.IsProgram := by
  obtain ⟨body, kind, fits⟩ := Phrase.exists_body_of_parse h
  exact ⟨body, kind, fun q hq => (fits q hq).fits⟩

/-- The tree of a text that parses is well-formed. -/
theorem Tree.wellFormed_of_parse {text : String} {options : ParseOptions} {t : Tree}
    (h : Tree.parse text options = .ok t) : t.WellFormed := by
  obtain ⟨p, hp, rfl⟩ := Tree.parse_eq_ok.mp h
  exact Tree.wellFormed_ofPhrase _ (Phrase.isProgram_of_parse hp)

lemma Tree.untagged_of_parse {text : String} {options : ParseOptions} {t : Tree}
    (h : Tree.parse text options = .ok t) {id : NodeId} {n : Node} (hn : t.node? id = some n) :
    n.tagged = false := by
  obtain ⟨p, -, rfl⟩ := Tree.parse_eq_ok.mp h
  exact Tree.untagged_ofPhrase _ hn

end ScriptDebugger
