import Mathlib.Data.List.Forall2
import Mathlib.Tactic.Lemma
import ScriptDebugger.Proofs.Syntax.Phrase

/-!
# The shape of syntax trees

What may stand in which place of a node: `roles` lists what each of its
children is for, in source order, and `admits` says which kinds of nodes a role
allows. Filling other children into a kind keeps both.
-/

namespace ScriptDebugger

section Lists

variable {α β γ : Type}

lemma forall₂_imp_mem {R S : α → β → Prop} {as : List α} {bs : List β}
    (h : List.Forall₂ R as bs) (imp : ∀ a ∈ as, ∀ b ∈ bs, R a b → S a b) :
    List.Forall₂ S as bs := by
  induction h with
  | nil => exact .nil
  | cons hab _ ih =>
    exact .cons (imp _ (by simp) _ (by simp) hab)
      (ih fun a ha b hb => imp a (by simp [ha]) b (by simp [hb]))

lemma forall₂_of_length {R : α → β → Prop} {as : List α} {bs : List β}
    (length : as.length = bs.length) (h : ∀ a, ∀ b ∈ bs, R a b) : List.Forall₂ R as bs := by
  rw [List.forall₂_iff_zip]
  exact ⟨length, fun hab => h _ _ (List.of_mem_zip hab).2⟩

lemma forall₂_and {R S : α → β → Prop} {as : List α} {bs : List β} (hr : List.Forall₂ R as bs)
    (hs : List.Forall₂ S as bs) : List.Forall₂ (fun a b => R a b ∧ S a b) as bs := by
  rw [List.forall₂_iff_zip] at *
  exact ⟨hr.1, fun hab => ⟨hr.2 hab, hs.2 hab⟩⟩

lemma forall₂_comp {R : α → β → Prop} {S : β → γ → Prop} {T : α → γ → Prop}
    (comp : ∀ a b c, R a b → S b c → T a c) {as : List α} {bs : List β} {cs : List γ}
    (hr : List.Forall₂ R as bs) (hs : List.Forall₂ S bs cs) : List.Forall₂ T as cs := by
  induction hr generalizing cs with
  | nil =>
    cases hs
    exact .nil
  | cons hab _ ih =>
    cases hs with
    | cons hbc hs => exact .cons (comp _ _ _ hab hbc) (ih hs)

lemma exists_left_of_mem {R : α → β → Prop} {as : List α} {bs : List β} {b : β}
    (h : List.Forall₂ R as bs) (hb : b ∈ bs) : ∃ a, R a b := by
  induction h with
  | nil => cases hb
  | cons hab _ ih =>
    rcases List.mem_cons.mp hb with rfl | hb
    · exact ⟨_, hab⟩
    · exact ih hb

lemma exists_of_forall₂_singleton {R : α → β → Prop} {a : α} {bs : List β}
    (h : List.Forall₂ R [a] bs) : ∃ b, bs = [b] ∧ R a b := by
  cases h with
  | cons hab rest =>
    cases rest
    exact ⟨_, rfl, hab⟩

lemma forall₂_replicate {R : α → β → Prop} {a : α} {bs : List β} :
    List.Forall₂ R (List.replicate bs.length a) bs ↔ ∀ b ∈ bs, R a b := by
  induction bs with
  | nil => simp
  | cons b bs ih => simp [List.replicate_succ, ih]

lemma forall₂_option {R : α → β → Prop} {a : α} {o : Option β} :
    List.Forall₂ R (o.toList.map fun _ => a) o.toList ↔ ∀ b, o = some b → R a b := by
  cases o <;> simp

lemma forall₂_append_iff {R : α → β → Prop} {as as' : List α} {bs bs' : List β}
    (length : as.length = bs.length) :
    List.Forall₂ R (as ++ as') (bs ++ bs') ↔ List.Forall₂ R as bs ∧ List.Forall₂ R as' bs' := by
  induction as generalizing bs with
  | nil =>
    obtain rfl := List.length_eq_zero_iff.mp length.symm
    simp
  | cons a as ih =>
    cases bs with
    | nil => simp at length
    | cons b bs => simp [ih (Nat.succ.inj length), and_assoc]

end Lists

namespace NodeKind

variable {α β : Type}

/-- What can be evaluated to a value. -/
def isExpression : NodeKind α → Bool
  | identifier _ | literal _ | arrayExpression _ | objectExpression _ | functionExpression ..
  | unaryExpression .. | updateExpression .. | binaryExpression .. | logicalExpression ..
  | assignmentExpression .. | conditionalExpression .. | callExpression .. | newExpression ..
  | memberExpression .. => true
  | _ => false

/-- Functions, by declaration or by expression. -/
def isFunction : NodeKind α → Bool
  | functionDeclaration .. | functionExpression .. => true
  | _ => false

/-- What gets an activation by being called. -/
def isCall : NodeKind α → Bool
  | callExpression .. | newExpression .. => true
  | _ => false

/-- What a function declaration would be as an expression. -/
def asExpression : NodeKind α → NodeKind α
  | functionDeclaration name params body => functionExpression (some name) params body
  | kind => kind

lemma isFunction_of_asExpression {kind : NodeKind α} {name : Option α} {params : List α} {body : α}
    (h : kind.asExpression = .functionExpression name params body) : kind.isFunction = true := by
  cases kind <;> first | rfl | cases h

lemma isStatement_of_isExpression {kind : NodeKind α} (h : kind.isExpression = true) :
    kind.isStatement = false := by
  cases kind <;> first | rfl | cases h

/-- What a child is for. -/
inductive Role where
  | statement | expression | body | name | declarator | property | forInit
  deriving DecidableEq, Repr

/-- The nodes that may stand in a role. -/
def Role.admits : Role → NodeKind α → Bool
  | statement, kind => kind.isStatement
  | expression, kind => kind.isExpression
  | body, blockStatement _ => true
  | name, identifier _ => true
  | declarator, variableDeclarator .. => true
  | property, NodeKind.property .. => true
  | forInit, variableDeclaration .. => true
  | forInit, kind => kind.isExpression
  | _, _ => false

/-- Whether what stands in a role is a statement; what opens a `for` is not. -/
def Role.isStatement : Role → Bool
  | statement | body => true
  | _ => false

/-- The roles of the children, in source order. -/
def roles : NodeKind α → List Role
  | program body | blockStatement body => List.replicate body.length .statement
  | variableDeclaration _ declarators => List.replicate declarators.length .declarator
  | variableDeclarator _ init => .name :: init.toList.map fun _ => .expression
  | functionDeclaration _ params _ => .name :: List.replicate params.length .name ++ [.body]
  | functionExpression name params _ =>
    (name.toList.map fun _ => .name) ++ List.replicate params.length .name ++ [.body]
  | expressionStatement _ | throwStatement _ | property .. | unaryExpression ..
  | updateExpression .. => [.expression]
  | ifStatement _ _ alternate =>
    .expression :: .statement :: alternate.toList.map fun _ => .statement
  | forStatement init test update _ =>
    (init.toList.map fun _ => .forInit) ++ (test.toList.map fun _ => .expression) ++
      (update.toList.map fun _ => .expression) ++ [.statement]
  | whileStatement .. => [.expression, .statement]
  | returnStatement argument => argument.toList.map fun _ => .expression
  | breakStatement | continueStatement | debuggerStatement | emptyStatement
  | identifier _ | literal _ => []
  | arrayExpression elements => List.replicate elements.length .expression
  | objectExpression properties => List.replicate properties.length .property
  | binaryExpression .. | logicalExpression .. | assignmentExpression .. =>
    [.expression, .expression]
  | conditionalExpression .. => [.expression, .expression, .expression]
  | callExpression _ arguments | newExpression _ arguments =>
    .expression :: List.replicate arguments.length .expression
  | memberExpression _ _ computed => [.expression, if computed then .expression else .name]

lemma length_roles (kind : NodeKind α) : kind.roles.length = kind.children.length := by
  cases kind <;> simp [roles, children, Nat.add_assoc]

lemma exists_cons_of_length {cs : List β} {n : Nat} (h : cs.length = n + 1) :
    ∃ c rest, cs = c :: rest ∧ rest.length = n := by
  cases cs with
  | nil => simp at h
  | cons c rest => exact ⟨c, rest, rfl, by simpa using h⟩

section Fill

variable [Inhabited β]

lemma popOption_toList (o : Option α) (cs : List β) (h : o.toList.length ≤ cs.length) :
    (popOption o cs).1.toList ++ (popOption o cs).2 = cs ∧
      (popOption o cs).1.toList.length = o.toList.length := by
  cases o with
  | none => exact ⟨rfl, rfl⟩
  | some a =>
    cases cs with
    | nil => simp at h
    | cons c rest => exact ⟨rfl, rfl⟩

lemma take_append_pop_drop {cs : List β} {n : Nat} (h : cs.length = n + 1) :
    cs.take n ++ [(pop (cs.drop n)).1] = cs := by
  obtain ⟨c, hc⟩ : ∃ c, cs.drop n = [c] := List.length_eq_one_iff.mp (by simp; omega)
  conv => rhs; rw [← List.take_append_drop n cs, hc]
  rw [hc]
  rfl

lemma popOption_toList_of_length {o : Option α} {cs : List β}
    (h : cs.length = o.toList.length) : (popOption o cs).1.toList = cs := by
  obtain ⟨happ, hlen⟩ := popOption_toList o cs (by omega)
  have rest : (popOption o cs).2 = [] := by
    have := congrArg List.length happ
    rw [List.length_append] at this
    exact List.length_eq_zero_iff.mp (by omega)
  rwa [rest, List.append_nil] at happ

/-- Filling puts the new children in the place of the old ones. -/
lemma children_fill {kind : NodeKind α} {cs : List β} (h : cs.length = kind.children.length) :
    (kind.fill cs).children = cs := by
  cases kind with
  | variableDeclarator name init =>
    obtain ⟨c, rest, rfl, hrest⟩ := exists_cons_of_length h
    exact congrArg (c :: ·) (popOption_toList_of_length hrest)
  | functionDeclaration name params body =>
    obtain ⟨c, rest, rfl, hrest⟩ := exists_cons_of_length h
    have hrest : rest.length = params.length + 1 := hrest.trans List.length_append
    exact congrArg (c :: ·) (take_append_pop_drop hrest)
  | functionExpression name params body =>
    simp only [children, List.length_append, List.length_singleton] at h
    obtain ⟨happ, hlen⟩ := popOption_toList name cs (by omega)
    have hrest : (popOption name cs).2.length = params.length + 1 := by
      have := congrArg List.length happ
      rw [List.length_append] at this
      omega
    simp only [fill, children, List.append_assoc, take_append_pop_drop hrest]
    exact happ
  | ifStatement test consequent alternate =>
    obtain ⟨c, rest, rfl, hrest⟩ := exists_cons_of_length h
    obtain ⟨d, rest, rfl, hrest⟩ := exists_cons_of_length hrest
    exact congrArg (c :: d :: ·) (popOption_toList_of_length (Nat.succ.inj hrest))
  | forStatement init test update body =>
    simp only [children, List.length_append, List.length_singleton] at h
    obtain ⟨happ₁, hlen₁⟩ := popOption_toList init cs (by omega)
    have total₁ := congrArg List.length happ₁
    rw [List.length_append] at total₁
    obtain ⟨happ₂, hlen₂⟩ := popOption_toList test (popOption init cs).2 (by omega)
    have total₂ := congrArg List.length happ₂
    rw [List.length_append] at total₂
    obtain ⟨happ₃, hlen₃⟩ := popOption_toList update
      (popOption test (popOption init cs).2).2 (by omega)
    have total₃ := congrArg List.length happ₃
    rw [List.length_append] at total₃
    have last : (popOption update (popOption test (popOption init cs).2).2).2.length = 0 + 1 := by
      omega
    obtain ⟨c, rest, hc, hrest⟩ := exists_cons_of_length last
    rw [List.length_eq_zero_iff.mp hrest] at hc
    rw [hc] at happ₃
    simp only [fill, children, hc, pop, List.append_assoc, happ₃, happ₂, happ₁]
  | returnStatement argument => exact popOption_toList_of_length h
  | callExpression callee arguments =>
    obtain ⟨c, rest, rfl, -⟩ := exists_cons_of_length h
    rfl
  | newExpression callee arguments =>
    obtain ⟨c, rest, rfl, -⟩ := exists_cons_of_length h
    rfl
  | expressionStatement | throwStatement | property | unaryExpression | updateExpression =>
    obtain ⟨c, rfl⟩ := List.length_eq_one_iff.mp h
    rfl
  | whileStatement | binaryExpression | logicalExpression | assignmentExpression
    | memberExpression =>
    obtain ⟨c, d, rfl⟩ := List.length_eq_two.mp h
    rfl
  | conditionalExpression =>
    obtain ⟨c, d, b, rfl⟩ := List.length_eq_three.mp h
    rfl
  | breakStatement | continueStatement | debuggerStatement | emptyStatement | identifier
    | literal => exact (List.length_eq_zero_iff.mp h).symm
  | program | blockStatement | variableDeclaration | arrayExpression | objectExpression => rfl

lemma toList_map_popOption {γ : Type} {o : Option α} {cs : List β} {r : γ} :
    ((popOption o cs).1.toList.map fun _ => r) = o.toList.map fun _ => r := by
  cases o <;> rfl

/-- Filling keeps the roles. -/
lemma roles_fill {kind : NodeKind α} {cs : List β} (h : cs.length = kind.children.length) :
    (kind.fill cs).roles = kind.roles := by
  cases kind with
  | functionDeclaration name params body =>
    obtain ⟨c, rest, rfl, hrest⟩ := exists_cons_of_length h
    have hrest : rest.length = params.length + 1 := hrest.trans List.length_append
    simp only [fill, roles, pop, List.length_take]
    rw [Nat.min_eq_left (by omega)]
  | functionExpression name params body =>
    simp only [children, List.length_append, List.length_singleton] at h
    obtain ⟨happ, hlen⟩ := popOption_toList name cs (by omega)
    have total := congrArg List.length happ
    rw [List.length_append] at total
    simp only [fill, roles, List.length_take, toList_map_popOption]
    rw [Nat.min_eq_left (by omega)]
  | callExpression callee arguments =>
    obtain ⟨c, rest, rfl, hrest⟩ := exists_cons_of_length h
    simp only [fill, roles, pop, hrest]
  | newExpression callee arguments =>
    obtain ⟨c, rest, rfl, hrest⟩ := exists_cons_of_length h
    simp only [fill, roles, pop, hrest]
  | program | blockStatement | variableDeclaration | arrayExpression | objectExpression =>
    simp only [children] at h
    simp only [fill, roles, h]
  | _ => simp only [fill, roles, toList_map_popOption]

lemma popOption_popOption {γ : Type} [Inhabited γ] (o : Option α) (cs : List β) (ds : List γ) :
    popOption (popOption o cs).1 ds = popOption o ds := by
  cases o <;> rfl

/-- Filled again, a node has the latest children. -/
lemma fill_fill {γ : Type} [Inhabited γ] {kind : NodeKind α} {cs : List β}
    (h : cs.length = kind.children.length) (ds : List γ) :
    (kind.fill cs).fill ds = kind.fill ds := by
  cases kind with
  | functionDeclaration name params body =>
    obtain ⟨c, rest, rfl, hrest⟩ := exists_cons_of_length h
    have hrest : rest.length = params.length + 1 := hrest.trans List.length_append
    simp only [fill, pop, List.length_take]
    rw [Nat.min_eq_left (by omega)]
  | functionExpression name params body =>
    simp only [children, List.length_append, List.length_singleton] at h
    obtain ⟨happ, hlen⟩ := popOption_toList name cs (by omega)
    have total := congrArg List.length happ
    rw [List.length_append] at total
    simp only [fill, List.length_take, popOption_popOption]
    rw [Nat.min_eq_left (by omega)]
  | _ => simp only [fill, popOption_popOption]

@[simp] lemma admits_fill (r : Role) (kind : NodeKind α) (cs : List β) :
    r.admits (kind.fill cs) = r.admits kind := by
  cases r <;> cases kind <;> rfl

end Fill

end NodeKind

/-- A phrase that may stand in a role, as do its sub-phrases in theirs. -/
inductive Phrase.Fits : NodeKind.Role → Phrase → Prop
  | mk {r : NodeKind.Role} {p : Phrase} (admits : r.admits p.kind = true)
      (children : List.Forall₂ Phrase.Fits p.kind.roles p.children) : Phrase.Fits r p

/-- A whole program of statements. -/
def Phrase.IsProgram (p : Phrase) : Prop :=
  ∃ body, p.kind = .program body ∧ ∀ s ∈ body, s.Fits .statement

end ScriptDebugger
