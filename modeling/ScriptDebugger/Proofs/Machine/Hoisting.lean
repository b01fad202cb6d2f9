import ScriptDebugger.Proofs.Machine.Place
import ScriptDebugger.Proofs.Syntax.Slots

/-!
# The declarations of a body

Hoisting walks down from the statements of a body, through blocks, branches and
loops, and stops at functions. Parent links say the same from the other end: in
a well-formed tree the walk from the body of a function or program finds exactly
the `var` declarators whose nearest enclosing function is that one.
-/

namespace ScriptDebugger

/-- The declarations and statements in a statement that hoisting looks into. -/
def NodeKind.substatements {α : Type} : NodeKind α → List α
  | blockStatement body => body
  | ifStatement _ consequent alternate => consequent :: alternate.toList
  | forStatement init _ _ body => init.toList ++ [body]
  | whileStatement _ body => [body]
  | _ => []

/-- The statements of a block or program. -/
def NodeKind.statementList {α : Type} : NodeKind α → List α
  | program body | blockStatement body => body
  | _ => []

/-- The branches of an `if` and the body of a loop. -/
def NodeKind.arms {α : Type} : NodeKind α → List α
  | ifStatement _ consequent alternate => consequent :: alternate.toList
  | forStatement _ _ _ body | whileStatement _ body => [body]
  | _ => []

lemma NodeKind.mem_children_of_substatements {α : Type} {kind : NodeKind α} {c : α}
    (h : c ∈ kind.substatements) : c ∈ kind.children := by
  cases kind with
  | blockStatement body => exact h
  | ifStatement test consequent alternate => exact List.mem_cons_of_mem _ h
  | forStatement init test update body =>
    rcases List.mem_append.mp h with h | h
    · exact List.mem_append_left _ (List.mem_append_left _ (List.mem_append_left _ h))
    · exact List.mem_append_right _ h
  | whileStatement test body => exact List.mem_cons_of_mem _ h
  | _ => cases h

lemma NodeKind.mem_children_of_statementList {α : Type} {kind : NodeKind α} {c : α}
    (h : c ∈ kind.statementList) : c ∈ kind.children := by
  cases kind <;> first | exact h | cases h

lemma NodeKind.isFunction_of_substatements {α : Type} {kind : NodeKind α} {c : α}
    (h : c ∈ kind.substatements) : kind.isFunction = false := by
  cases kind <;> first | rfl | cases h

lemma NodeKind.isStatement_of_substatements {α : Type} {kind : NodeKind α} {c : α}
    (h : c ∈ kind.substatements) : kind.isStatement = true := by
  cases kind <;> first | rfl | cases h

lemma NodeKind.isFunction_of_functionBody {α : Type} {kind : NodeKind α} {c : α}
    (h : kind.functionBody? = some c) : kind.isFunction = true := by
  cases kind <;> first | rfl | cases h

lemma NodeKind.mem_children_of_functionBody {α : Type} {kind : NodeKind α} {c : α}
    (h : kind.functionBody? = some c) : c ∈ kind.children := by
  cases kind <;> cases h <;> simp [NodeKind.children]

namespace Tree

variable {t : Tree}

/-- Node `d` is a `var` declarator of the name. -/
def DeclaresVar (t : Tree) (d : NodeId) (name : String) : Prop :=
  ∃ declaration declarators nameId init,
    t.kind declaration = .variableDeclaration .varKind declarators ∧ d ∈ declarators ∧
    t.kind d = .variableDeclarator nameId init ∧ t.kind nameId = .identifier name

/-- The statements that the program or a function runs. -/
def bodyOf (t : Tree) (id : NodeId) : List NodeId :=
  match t.kind id with
  | .program body => body
  | .functionDeclaration _ _ body | .functionExpression _ _ body => t.blockBody body
  | _ => []

/-- The names of the functions that a list of statements declares itself. -/
def functionNames (t : Tree) (body : List NodeId) : List String :=
  body.filterMap fun id =>
    match t.kind id with
    | .functionDeclaration nameId _ _ => some (t.nameOf nameId)
    | _ => none

lemma bodyOf_of_functionBody {p b : NodeId} (hb : (t.kind p).functionBody? = some b) :
    t.bodyOf p = t.blockBody b := by
  cases hk : t.kind p <;> rw [hk] at hb <;> cases hb <;> simp only [bodyOf, hk]

lemma mem_declaredNames {declarators : List NodeId} {name : String} :
    name ∈ t.declaredNames declarators ↔ ∃ d ∈ declarators, ∃ nameId init,
      t.kind d = .variableDeclarator nameId init ∧ t.kind nameId = .identifier name := by
  simp only [declaredNames, List.mem_filterMap]
  refine exists_congr fun d => and_congr_right fun _ => ?_
  constructor
  · intro h
    split at h
    case h_1 nameId init hk =>
      refine ⟨nameId, init, hk, ?_⟩
      cases hn : t.kind nameId <;> rw [hn] at h <;> cases h
      rfl
    case h_2 => cases h
  · rintro ⟨nameId, init, hk, hn⟩
    simp only [hk, hn, NodeKind.name?]

lemma mem_functionNames {body : List NodeId} {name : String} :
    name ∈ t.functionNames body ↔ ∃ id ∈ body, ∃ nameId params b,
      t.kind id = .functionDeclaration nameId params b ∧ t.nameOf nameId = name := by
  simp only [functionNames, List.mem_filterMap]
  refine exists_congr fun id => and_congr_right fun _ => ?_
  constructor
  · intro h
    split at h
    case h_1 nameId params b hk => exact ⟨nameId, params, b, hk, Option.some.inj h⟩
    case h_2 => cases h
  · rintro ⟨nameId, params, b, hk, rfl⟩
    simp only [hk]

lemma declaresLexically_of_functionNames {body : List NodeId} {name : String}
    (h : name ∈ t.functionNames body) : t.declaresLexically body = true := by
  obtain ⟨id, hid, nameId, params, b, hk, -⟩ := mem_functionNames.mp h
  exact List.any_eq_true.mpr ⟨id, hid, by simp only [hk]⟩

lemma kind_of_mem_blockBody {b c : NodeId} (hc : c ∈ t.blockBody b) :
    t.kind b = .blockStatement (t.blockBody b) := by
  rw [blockBody] at hc
  split at hc
  case h_1 body hk => rw [blockBody, hk]
  case h_2 => cases hc

/-- What one level of the walk finds. -/
lemma mem_varNamesFrom_succ {fuel : Nat} {id : NodeId} {name : String} :
    name ∈ t.varNamesFrom (fuel + 1) id ↔
      (∃ ds, t.kind id = .variableDeclaration .varKind ds ∧ name ∈ t.declaredNames ds) ∨
      ∃ c ∈ (t.kind id).substatements, name ∈ t.varNamesFrom fuel c := by
  cases hk : t.kind id with
  | variableDeclaration kind ds => cases kind <;> simp [varNamesFrom, hk, NodeKind.substatements]
  | _ => simp [varNamesFrom, hk, NodeKind.substatements]

namespace WellFormed

variable (h : t.WellFormed)
include h

/-- A statement is in one list at most. -/
lemma list_unique {p q c : Nat} (hp : c ∈ (t.kind p).statementList)
    (hq : c ∈ (t.kind q).statementList) : p = q :=
  h.unique p q c (NodeKind.mem_children_of_statementList hp)
    (NodeKind.mem_children_of_statementList hq)

/-- A declarator names an identifier. -/
lemma kind_nameId {d nameId : NodeId} {init : Option NodeId}
    (hd : t.kind d = .variableDeclarator nameId init) :
    t.kind nameId = .identifier (t.nameOf nameId) := by
  have shape := h.shape d
  simp only [children, hd, NodeKind.roles, NodeKind.children, List.forall₂_cons] at shape
  cases hk : t.kind nameId with
  | identifier name => simp [nameOf, hk, NodeKind.name?]
  | _ =>
    rw [hk] at shape
    cases shape.1

/-- Deeper than a node's number there is nothing to find. -/
lemma varNamesFrom_eq {fuel fuel' id : Nat} (hf : id < fuel) (hf' : id < fuel') :
    t.varNamesFrom fuel id = t.varNamesFrom fuel' id := by
  induction fuel generalizing fuel' id with
  | zero => exact absurd hf (Nat.not_lt_zero id)
  | succ fuel ih =>
    obtain ⟨fuel', rfl⟩ := Nat.exists_eq_succ_of_ne_zero (Nat.ne_zero_of_lt hf')
    have same (c : Nat) (hc : c ∈ (t.kind id).substatements) :
        t.varNamesFrom fuel c = t.varNamesFrom fuel' c := by
      have := h.child_lt id c (NodeKind.mem_children_of_substatements hc)
      exact ih (by omega) (by omega)
    simp only [varNamesFrom]
    cases hk : t.kind id with
    | variableDeclaration kind ds => cases kind <;> rfl
    | blockStatement body =>
      refine List.flatMap_congr fun c hc => same c ?_
      rw [hk]
      exact hc
    | ifStatement test consequent alternate =>
      refine congrArg₂ (· ++ ·) (same consequent ?_) (List.flatMap_congr fun c hc => same c ?_)
      · rw [hk]
        exact List.mem_cons_self
      · rw [hk]
        exact List.mem_cons_of_mem _ hc
    | forStatement init test update body =>
      refine congrArg₂ (· ++ ·) (List.flatMap_congr fun c hc => same c ?_) (same body ?_)
      · rw [hk]
        exact List.mem_append_left _ hc
      · rw [hk]
        exact List.mem_append_right _ List.mem_cons_self
    | whileStatement test body =>
      refine same body ?_
      rw [hk]
      exact List.mem_cons_self
    | _ => rfl

/-- The names that hoisting finds in a node are those of its own declarators and of the statements
in it. -/
lemma mem_varNamesIn {id : Nat} {name : String} :
    name ∈ t.varNamesFrom (t.size + 1) id ↔
      (∃ ds, t.kind id = .variableDeclaration .varKind ds ∧ name ∈ t.declaredNames ds) ∨
      ∃ c ∈ (t.kind id).substatements, name ∈ t.varNamesFrom (t.size + 1) c := by
  rw [mem_varNamesFrom_succ]
  refine or_congr_right (exists_congr fun (c : Nat) => and_congr_right fun hc => ?_)
  have child := NodeKind.mem_children_of_substatements hc
  have := h.child_lt id c child
  have := lt_size_of_mem_children child
  rw [h.varNamesFrom_eq (by omega : c < t.size) (by omega : c < t.size + 1)]

/-- What is found belongs to the function around the node where it is found. -/
lemma exists_declarator {id : Nat} {name : String} (hn : name ∈ t.varNamesFrom (t.size + 1) id) :
    ∃ d, t.DeclaresVar d name ∧ t.owner d = t.owner id := by
  induction id using Nat.strongRecOn with
  | ind id ih =>
    rcases h.mem_varNamesIn.mp hn with ⟨ds, hk, hn⟩ | ⟨c, hc, hn⟩
    · obtain ⟨d, hd, nameId, init, hkd, hkn⟩ := mem_declaredNames.mp hn
      have child : d ∈ t.children id := by rwa [children, hk]
      refine ⟨d, ⟨id, ds, nameId, init, hk, hd, hkd, hkn⟩, ?_⟩
      simp [h.owner_child child, hk, NodeKind.isFunction]
    · have child := NodeKind.mem_children_of_substatements hc
      obtain ⟨d, declares, owner⟩ := ih c (h.child_lt id c child) hn
      refine ⟨d, declares, owner.trans ?_⟩
      simp [h.owner_child child, NodeKind.isFunction_of_substatements hc]

/-- Where a statement may stand: inside another one, in the program, or as the body of a
function. -/
lemma statement_cases {p c : Nat} (hc : c ∈ t.children p) (hs : (t.kind c).isStatement = true) :
    c ∈ (t.kind p).substatements ∨ (∃ body, t.kind p = .program body) ∨
      (t.kind p).functionBody? = some c := by
  -- The role of `c` is that of a statement, or `c` opens a `for`.
  have roles : List.Forall₂ (fun r c' => c' = c → r.isStatement = true ∨ r = .forInit)
      (t.kind p).roles (t.children p) :=
    forall₂_imp_mem (h.shape p) fun r _ c' _ admits same => by
      by_cases init : r = .forInit
      · exact .inr init
      · exact .inl ((isStatement_of_admits init admits).symm.trans (same ▸ hs))
  have other {r : NodeKind.Role} (own : r.isStatement = true ∨ r = .forInit) :
      r ≠ .expression ∧ r ≠ .name ∧ r ≠ .declarator ∧ r ≠ .property := by
    rcases own with own | rfl
    · cases r <;> simp_all [NodeKind.Role.isStatement]
    · simp
  rw [children] at hc roles
  generalize t.kind p = kind at *
  cases kind with
  | program body => exact .inr (.inl ⟨body, rfl⟩)
  | blockStatement body => exact .inl hc
  | ifStatement test consequent alternate =>
    rcases List.mem_cons.mp hc with rfl | hc
    · exact absurd rfl (other ((List.forall₂_cons.mp roles).1 rfl)).1
    · exact .inl hc
  | whileStatement test body =>
    rcases List.mem_cons.mp hc with rfl | hc
    · exact absurd rfl (other ((List.forall₂_cons.mp roles).1 rfl)).1
    · exact .inl hc
  | forStatement init test update body =>
    simp only [NodeKind.roles, NodeKind.children] at roles
    rw [forall₂_append_iff (by simp), forall₂_append_iff (by simp), forall₂_append_iff (by simp),
      forall₂_option, forall₂_option, forall₂_option] at roles
    obtain ⟨⟨⟨-, htest⟩, hupdate⟩, -⟩ := roles
    left
    simp only [NodeKind.children, NodeKind.substatements, List.mem_append,
      Option.mem_toList] at hc ⊢
    rcases hc with ((hc | hc) | hc) | hc
    · exact .inl hc
    · exact absurd rfl (other (htest c hc rfl)).1
    · exact absurd rfl (other (hupdate c hc rfl)).1
    · exact .inr hc
  | functionDeclaration name params body =>
    simp only [NodeKind.roles, NodeKind.children] at roles hc
    rw [forall₂_append_iff (by simp), List.forall₂_cons, forall₂_replicate] at roles
    obtain ⟨⟨hname, hparams⟩, -⟩ := roles
    rcases List.mem_append.mp hc with hc | hc
    · rcases List.mem_cons.mp hc with rfl | hc
      · exact absurd rfl (other (hname rfl)).2.1
      · exact absurd rfl (other (hparams c hc rfl)).2.1
    · exact .inr (.inr (congrArg some (List.mem_singleton.mp hc).symm))
  | functionExpression name params body =>
    simp only [NodeKind.roles, NodeKind.children] at roles hc
    rw [forall₂_append_iff (by simp), forall₂_append_iff (by simp), forall₂_option,
      forall₂_replicate] at roles
    obtain ⟨⟨hname, hparams⟩, -⟩ := roles
    rcases List.mem_append.mp hc with hc | hc
    · rcases List.mem_append.mp hc with hc | hc
      · exact absurd rfl (other (hname c (Option.mem_toList.mp hc) rfl)).2.1
      · exact absurd rfl (other (hparams c hc rfl)).2.1
    · exact .inr (.inr (congrArg some (List.mem_singleton.mp hc).symm))
  | _ =>
    -- No other node has a child in such a role.
    obtain ⟨r, hr, own⟩ := exists_left_of_mem
      (forall₂_imp_mem roles fun r hr c' _ own => And.intro hr own) hc
    have := other (own rfl)
    exfalso
    simp only [NodeKind.roles] at hr
    grind

/-- What stands before the first semicolon of a `for`. -/
lemma admits_init {p c : Nat} {test update : Option NodeId} {body : NodeId}
    (hk : t.kind p = .forStatement (some c) test update body) :
    NodeKind.Role.forInit.admits (t.kind c) = true := by
  have shape := h.shape p
  simp only [children, hk, NodeKind.roles, NodeKind.children] at shape
  rw [forall₂_append_iff (by simp), forall₂_append_iff (by simp), forall₂_append_iff (by simp)]
    at shape
  exact (List.forall₂_cons.mp shape.1.1.1).1

/-- The body of a function is a block. -/
lemma block_of_functionBody {p c : Nat} (hc : (t.kind p).functionBody? = some c) :
    ∃ body, t.kind c = .blockStatement body := by
  have shape := h.shape p
  have admits : NodeKind.Role.body.admits (t.kind c) = true := by
    rw [children] at shape
    generalize t.kind p = kind at *
    cases kind with
    | functionDeclaration name params body =>
      cases hc
      simp only [NodeKind.roles, NodeKind.children] at shape
      rw [forall₂_append_iff (by simp)] at shape
      exact (List.forall₂_cons.mp shape.2).1
    | functionExpression name params body =>
      cases hc
      simp only [NodeKind.roles, NodeKind.children] at shape
      rw [forall₂_append_iff (by simp)] at shape
      exact (List.forall₂_cons.mp shape.2).1
    | _ => cases hc
  cases hk : t.kind c with
  | blockStatement body => exact ⟨body, rfl⟩
  | _ =>
    rw [hk] at admits
    cases admits

/-- A function is declared in the list of a block or program, or on its own as a branch or the body
of a loop. -/
lemma parent_of_functionDeclaration {id : Nat} {nameId b : NodeId} {params : List NodeId}
    (hk : t.kind id = .functionDeclaration nameId params b) :
    ∃ p, t.parent id = some p ∧ (id ∈ (t.kind p).statementList ∨ id ∈ (t.kind p).arms) := by
  have notLast : id + 1 < t.size := by
    by_contra outside
    by_cases last : id + 1 = t.size
    · obtain ⟨body, root⟩ := h.program
      rw [← last, Nat.add_sub_cancel, hk] at root
      cases root
    · rw [kind_of_size_le (by omega)] at hk
      cases hk
  obtain ⟨p, child⟩ := h.has_parent id notLast
  refine ⟨p, (h.parent_iff id p).mpr child, ?_⟩
  rcases h.statement_cases child (by simp [hk, NodeKind.isStatement]) with part | program | body
  · cases hp : t.kind p with
    | blockStatement body =>
      rw [hp] at part
      exact .inl part
    | ifStatement test consequent alternate | whileStatement test body =>
      rw [hp] at part
      exact .inr part
    | forStatement init test update body =>
      rw [hp] at part
      rcases List.mem_append.mp part with opens | body
      · rw [Option.mem_toList] at opens
        have admits := h.admits_init (opens ▸ hp)
        rw [hk] at admits
        cases admits
      · exact .inr body
    | _ =>
      rw [hp] at part
      cases part
  · obtain ⟨body, program⟩ := program
    left
    rw [children, program] at child
    rwa [program]
  · obtain ⟨body, block⟩ := h.block_of_functionBody body
    rw [hk] at block
    cases block

lemma owner_root {o : Nat} (ho : o + 1 = t.size) : t.owner o = o := by
  rw [h.owner_eq, h.parent_of_size_le (by omega)]

/-- What hoisting finds in a statement, it finds from the body of the function around it. -/
lemma mem_varNames_owner {c : Nat} {name : String} (hs : (t.kind c).isStatement = true)
    (hn : name ∈ t.varNamesFrom (t.size + 1) c) : name ∈ t.varNames (t.bodyOf (t.owner c)) := by
  obtain ⟨k, hk⟩ : ∃ k, k = t.size - c := ⟨_, rfl⟩
  -- From the root down: a parent comes later than its children.
  induction k using Nat.strongRecOn generalizing c with
  | ind k ih =>
    have inside : c + 1 < t.size := by
      by_contra outside
      rcases Nat.lt_or_ge c t.size with hlt | hge
      · obtain ⟨body, hb⟩ := h.program
        rw [show t.size - 1 = c by omega] at hb
        rw [hb] at hs
        cases hs
      · rw [mem_varNamesFrom_succ, kind_of_size_le hge] at hn
        simp [NodeKind.substatements] at hn
    obtain ⟨p, hp⟩ := h.has_parent c inside
    rw [h.owner_child hp]
    rcases h.statement_cases hp hs with sub | ⟨body, hb⟩ | hb
    · rw [NodeKind.isFunction_of_substatements sub]
      refine ih (t.size - p) ?_ (NodeKind.isStatement_of_substatements sub)
        (h.mem_varNamesIn.mpr (.inr ⟨c, sub, hn⟩)) rfl
      have := h.child_lt p c hp
      omega
    · rw [hb]
      have own : t.owner p = p := h.owner_root (h.only_program p body hb)
      simp only [NodeKind.isFunction, Bool.false_eq_true, if_false, own, bodyOf, hb]
      rw [children, hb] at hp
      exact List.mem_flatMap.mpr ⟨c, hp, hn⟩
    · rw [if_pos (NodeKind.isFunction_of_functionBody hb)]
      obtain ⟨body, hk⟩ := h.block_of_functionBody hb
      rcases h.mem_varNamesIn.mp hn with ⟨ds, hk', -⟩ | ⟨c', hc', hn⟩
      · rw [hk] at hk'
        cases hk'
      · rw [bodyOf_of_functionBody hb, blockBody, hk]
        rw [hk] at hc'
        exact List.mem_flatMap.mpr ⟨c', hc', hn⟩

/-- A statement that a function or program runs belongs to it. -/
lemma owner_of_mem_bodyOf {o c : Nat} (hc : c ∈ t.bodyOf o) : t.owner c = o := by
  have inBlock {b : Nat} (hb : (t.kind o).functionBody? = some b) (hc : c ∈ t.blockBody b) :
      t.owner c = o := by
    obtain ⟨body, hk⟩ := h.block_of_functionBody hb
    rw [blockBody, hk] at hc
    have child : c ∈ t.children b := by rwa [children, hk]
    rw [h.owner_child child, hk]
    rw [h.owner_child (NodeKind.mem_children_of_functionBody hb),
      NodeKind.isFunction_of_functionBody hb]
    rfl
  rw [bodyOf] at hc
  split at hc
  case h_1 body hk =>
    have child : c ∈ t.children o := by rwa [children, hk]
    rw [h.owner_child child, hk]
    exact h.owner_root (h.only_program o body hk)
  case h_2 name params b hk => exact inBlock (by rw [hk]; rfl) hc
  case h_3 name params b hk => exact inBlock (by rw [hk]; rfl) hc
  case h_4 => cases hc

/-- Hoisting finds in the body of a function or program exactly its `var` declarators. -/
theorem mem_varNames_bodyOf {o : Nat} {name : String} :
    name ∈ t.varNames (t.bodyOf o) ↔ ∃ d, t.DeclaresVar d name ∧ t.owner d = o := by
  constructor
  · intro hn
    obtain ⟨c, hc, hn⟩ := List.mem_flatMap.mp hn
    obtain ⟨d, declares, owner⟩ := h.exists_declarator hn
    exact ⟨d, declares, owner.trans (h.owner_of_mem_bodyOf hc)⟩
  · rintro ⟨d, ⟨v, ds, nameId, init, hk, hd, hkd, hkn⟩, rfl⟩
    have child : d ∈ t.children v := by rwa [children, hk]
    have own : t.owner d = t.owner v := by
      rw [h.owner_child child, hk]
      rfl
    rw [own]
    refine h.mem_varNames_owner (by rw [hk]; rfl) (h.mem_varNamesIn.mpr (.inl ⟨ds, hk, ?_⟩))
    exact mem_declaredNames.mpr ⟨d, hd, nameId, init, hkd, hkn⟩

end WellFormed

end Tree

end ScriptDebugger
