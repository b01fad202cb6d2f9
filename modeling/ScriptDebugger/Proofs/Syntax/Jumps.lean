import ScriptDebugger.Machine.Hoist
import ScriptDebugger.Proofs.Syntax.Ancestor
import ScriptDebugger.Proofs.Syntax.Shape

/-!
# Where jumps stand

In the tree of a text that parses, every `break` and every `continue` stands in
the body of a loop with no function in between, and every `return` in the body
of a function. The parser's contexts go from a node to its children (`Legal`);
that a context has a loop or a function is backed by a node further up
(`Covers`).
-/

namespace ScriptDebugger

namespace Grammar

/-- A node may stand in a context, and so may the nodes inside it in theirs. -/
inductive Legal (kinds : NodeId → NodeKind NodeId) : Context → NodeId → Prop
  | mk {ctx : Context} {id : NodeId} (allowed : ctx.allows (kinds id) = true)
    (children : List.Forall₂ (Legal kinds) (ctx.children (kinds id)) (kinds id).children) :
    Legal kinds ctx id

namespace Legal

variable {kinds : NodeId → NodeKind NodeId} {ctx : Context} {id : NodeId}

lemma allowed (h : Legal kinds ctx id) : ctx.allows (kinds id) = true := by
  cases h with
  | mk allowed children => exact allowed

lemma children (h : Legal kinds ctx id) :
    List.Forall₂ (fun r c => Legal kinds (ctx.ofChild (kinds id) r) c) (kinds id).roles
      (kinds id).children := by
  cases h with
  | mk allowed children => exact List.forall₂_map_left_iff.mp children

lemma statements {body : List NodeId} (h : Legal kinds ctx id)
    (kind : kinds id = .program body ∨ kinds id = .blockStatement body) :
    ∀ c ∈ body, Legal kinds ctx c := by
  have children := h.children
  rcases kind with kind | kind
  all_goals
    rw [kind] at children
    have inside := forall₂_replicate.mp children
    exact inside

lemma branches {test consequent : NodeId} {alternate : Option NodeId} (h : Legal kinds ctx id)
    (kind : kinds id = .ifStatement test consequent alternate) :
    Legal kinds ctx consequent ∧ ∀ c, alternate = some c → Legal kinds ctx c := by
  have children := h.children
  rw [kind] at children
  obtain ⟨-, consequent, rest⟩ := (List.forall₂_cons.mp children).imp_right List.forall₂_cons.mp
  have alternate := forall₂_option.mp rest
  exact ⟨consequent, alternate⟩

lemma loopBody {body : NodeId} (h : Legal kinds ctx id) (kind : (kinds id).loopBody? = some body) :
    Legal kinds ctx.loop body := by
  have children := h.children
  cases hk : kinds id with
  | whileStatement test b =>
    rw [hk] at kind children
    cases kind
    exact (List.forall₂_cons.mp (List.forall₂_cons.mp children).2).1
  | forStatement init test update b =>
    rw [hk] at kind children
    cases kind
    have last := ((forall₂_append_iff (by simp)).mp children).2
    exact (List.forall₂_cons.mp last).1
  | _ => rw [hk] at kind; cases kind

lemma functionBody {body : NodeId} (h : Legal kinds ctx id)
    (kind : (kinds id).functionBody? = some body) : Legal kinds ⟨true, false⟩ body := by
  have children := h.children
  cases hk : kinds id with
  | functionDeclaration | functionExpression =>
    rw [hk] at kind children
    cases kind
    have last := ((forall₂_append_iff (by simp)).mp children).2
    exact (List.forall₂_cons.mp last).1
  | _ => rw [hk] at kind; cases kind

end Legal

/-- The node of a phrase that fits may stand where the phrase does. -/
lemma legal_of_placed {t : Tree} {ctx : Context} {q : Phrase} {id : NodeId}
    (h : Phrase.Placed t.nodes q id) (allowed : ctx.allows q.kind = true)
    (fits : List.Forall₂ Phrase.FitsIn (ctx.slots q.kind) q.children) : Legal t.kind ctx id := by
  induction q using Phrase.induct generalizing ctx id with
  | h q ih =>
    cases h with
    | @mk _ _ node ids get kind span children =>
      have count := children.length_eq.symm
      have filled : t.kind id = q.kind.fill ids := (Tree.kind_of_getElem? get).trans kind
      refine .mk (by rw [filled, Context.allows_fill, allowed]) ?_
      rw [filled, Context.children_fill _ count, NodeKind.children_fill count]
      have legal : List.Forall₂ (fun c id => ∀ s : Slot, c.FitsIn s → Legal t.kind s.context id)
          q.children ids :=
        forall₂_imp_mem children fun c hc id _ placed s hs => by
          cases hs with
          | mk admits inner => exact ih c hc placed (Bool.and_eq_true_iff.mp admits).2 inner
      exact List.forall₂_map_left_iff.mpr (forall₂_comp (fun r c id hc hid => hid _ hc)
        (List.forall₂_map_left_iff.mp fits) legal)

/-- The tree of a text that parses is legal outside of functions and loops. -/
theorem legal_of_parse {text : String} {options : ParseOptions} {t : Tree}
    (h : Tree.parse text options = .ok t) : Legal t.kind ⟨false, false⟩ (t.size - 1) := by
  obtain ⟨p, hp, rfl⟩ := Tree.parse_eq_ok.mp h
  obtain ⟨body, kind, fits⟩ := Phrase.exists_body_of_parse hp
  generalize (if options.locations then some (LineTable.ofText text) else none) = table?
  obtain ⟨n, hn⟩ := Tree.size_numbered (fun s => table?.map (·.location s)) options.sourceType p
  have linked : Tree.ofPhrase table? options.sourceType p =
      (Tree.numbered (fun s => table?.map (·.location s)) options.sourceType p).link
        ((p.number (fun s => table?.map (·.location s)) #[]).size - 1) := rfl
  rw [linked, Tree.size_link, hn, funext (Tree.kind_link _ _)]
  refine legal_of_placed (Tree.placed_last hn) (by rw [kind]; rfl) ?_
  rw [Phrase.children, kind]
  exact List.forall₂_map_left_iff.mpr (forall₂_replicate.mpr fits)

end Grammar

namespace Tree

variable (t : Tree)

/-- The body of a loop, and what is inside it but not inside a function there. -/
inductive InLoop : NodeId → Prop
  | body {loop id : NodeId} (h : (t.kind loop).loopBody? = some id) : InLoop id
  | inside {parent id : NodeId} (h : InLoop parent)
    (noFunction : (t.kind parent).isFunction = false) (child : id ∈ t.children parent) : InLoop id

/-- The body of a function, and what is inside it. -/
inductive InFunction : NodeId → Prop
  | body {function id : NodeId} (h : (t.kind function).functionBody? = some id) : InFunction id
  | inside {parent id : NodeId} (h : InFunction parent) (child : id ∈ t.children parent) :
    InFunction id

/-- What a context says of a node is so in the tree. -/
structure Covers (ctx : Grammar.Context) (id : NodeId) : Prop where
  loop : ctx.inLoop = true → t.InLoop id
  function : ctx.inFunction = true → t.InFunction id

variable {t}

lemma Covers.inside {ctx : Grammar.Context} {p c : NodeId} (h : t.Covers ctx p)
    (noFunction : (t.kind p).isFunction = false) (child : c ∈ t.children p) : t.Covers ctx c where
  loop := fun hl => .inside (h.loop hl) noFunction child
  function := fun hf => .inside (h.function hf) child

lemma Covers.loopBody {ctx : Grammar.Context} {p c : NodeId} (h : t.Covers ctx p)
    (body : (t.kind p).loopBody? = some c) (child : c ∈ t.children p) : t.Covers ctx.loop c where
  loop := fun _ => .body body
  function := fun hf => .inside (h.function hf) child

lemma covers_functionBody {p c : NodeId} (body : (t.kind p).functionBody? = some c) :
    t.Covers ⟨true, false⟩ c where
  loop := nofun
  function := fun _ => .body body

lemma covers_outside (c : NodeId) : t.Covers ⟨false, false⟩ c := ⟨nofun, nofun⟩

/-- What a context says goes on to the children. -/
lemma covers_children {ctx : Grammar.Context} {p : NodeId} (h : t.Covers ctx p) :
    List.Forall₂ (fun r c => t.Covers (ctx.ofChild (t.kind p) r) c) (t.kind p).roles
      (t.children p) := by
  have inside := fun c => h.inside (c := c)
  have loopBody := fun c => h.loopBody (c := c)
  have functionBody := fun c => covers_functionBody (t := t) (p := p) (c := c)
  rw [Tree.children] at *
  generalize t.kind p = kind at *
  let R (r : NodeKind.Role) (c : NodeId) : Prop := t.Covers (ctx.ofChild kind r) c
  cases kind with
  | whileStatement test body =>
    exact .cons (inside test rfl (by simp [NodeKind.children]))
      (.cons (loopBody body rfl (by simp [NodeKind.children])) .nil)
  | forStatement init test update body =>
    have head (c : NodeId) (hc : c ∈ init.toList ++ test.toList ++ update.toList) :
        t.Covers ctx c := inside c rfl (List.mem_append_left _ hc)
    have hinit : List.Forall₂ R (init.toList.map fun _ => .forInit) init.toList :=
      forall₂_option.mpr fun c hc => head c (by simp [hc])
    have htest : List.Forall₂ R (test.toList.map fun _ => .expression) test.toList :=
      forall₂_option.mpr fun c hc => head c (by simp [hc])
    have hupdate : List.Forall₂ R (update.toList.map fun _ => .expression) update.toList :=
      forall₂_option.mpr fun c hc => head c (by simp [hc])
    have hbody : List.Forall₂ R [.statement] [body] :=
      .cons (loopBody body rfl (List.mem_append_right _ List.mem_cons_self)) .nil
    exact List.rel_append (List.rel_append (List.rel_append hinit htest) hupdate) hbody
  | functionDeclaration name params body =>
    exact List.rel_append (R := R)
      (.cons (covers_outside name) (forall₂_replicate.mpr fun c _ => covers_outside c))
      (.cons (functionBody body rfl) .nil)
  | functionExpression name params body =>
    exact List.rel_append (R := R)
      (List.rel_append (R := R) (forall₂_option.mpr fun c _ => covers_outside c)
        (forall₂_replicate.mpr fun c _ => covers_outside c))
      (.cons (functionBody body rfl) .nil)
  | _ => exact forall₂_of_length (NodeKind.length_roles _) fun r c hc => inside c rfl hc

/-- Every node stands in a context that the tree bears out. -/
lemma WellFormed.exists_context (h : t.WellFormed)
    (root : Grammar.Legal t.kind ⟨false, false⟩ (t.size - 1)) {id : Nat} (hid : id < t.size) :
    ∃ ctx, Grammar.Legal t.kind ctx id ∧ t.Covers ctx id := by
  obtain ⟨k, hk⟩ := Nat.exists_eq_add_of_lt hid
  -- From the root down: a parent comes later than its children.
  induction k using Nat.strongRecOn generalizing id with
  | ind k ih =>
    by_cases last : id = t.size - 1
    · exact ⟨_, last ▸ root, covers_outside id⟩
    · obtain ⟨p, hp⟩ := h.has_parent id (by omega)
      have later := h.child_lt p id hp
      have inside := lt_size_of_mem_children hp
      obtain ⟨ctx, legal, covers⟩ := ih (t.size - p - 1) (by omega) inside (by omega)
      obtain ⟨r, both⟩ :=
        exists_left_of_mem (forall₂_and legal.children (covers_children covers)) hp
      exact ⟨_, both⟩

/-- The bodies of all functions may stand in a function, outside of loops. -/
lemma WellFormed.legal_functionBody (h : t.WellFormed)
    (root : Grammar.Legal t.kind ⟨false, false⟩ (t.size - 1)) {id body : NodeId}
    (kind : (t.kind id).functionBody? = some body) : Grammar.Legal t.kind ⟨true, false⟩ body := by
  by_cases hid : id < t.size
  · obtain ⟨ctx, legal, -⟩ := h.exists_context root hid
    exact legal.functionBody kind
  · rw [kind_of_size_le (Nat.le_of_not_lt hid)] at kind
    cases kind

/-- In a text that parses, `break` and `continue` stand in loops and `return` in functions. -/
theorem jumps_of_parse {text : String} {options : ParseOptions}
    (h : Tree.parse text options = .ok t) (id : NodeId) :
    (t.kind id = .breakStatement ∨ t.kind id = .continueStatement → t.InLoop id) ∧
      ∀ argument, t.kind id = .returnStatement argument → t.InFunction id := by
  by_cases hid : id < t.size
  · obtain ⟨ctx, legal, covers⟩ :=
      (wellFormed_of_parse h).exists_context (Grammar.legal_of_parse h) hid
    have allowed := legal.allowed
    refine ⟨fun kind => covers.loop ?_, fun argument kind => covers.function ?_⟩
    · rcases kind with kind | kind <;> rwa [kind] at allowed
    · rwa [kind] at allowed
  · rw [kind_of_size_le (Nat.le_of_not_lt hid)]
    exact ⟨nofun, nofun⟩

lemma legal_blockBody {ctx : Grammar.Context} {b : NodeId} (h : Grammar.Legal t.kind ctx b) :
    ∀ id ∈ t.blockBody b, Grammar.Legal t.kind ctx id := by
  cases hk : t.kind b with
  | blockStatement body => simpa only [blockBody, hk] using h.statements (.inr hk)
  | _ => simp [blockBody, hk]

end Tree

end ScriptDebugger
