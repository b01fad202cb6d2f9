import ScriptDebugger.Proofs.Syntax.MovedDerivation
import ScriptDebugger.Proofs.Token.Ordered

/-!
# Extents of phrases

A phrase is spaced if its span begins and ends with a token and holds the spans
of its sub-phrases, one after the other, which are spaced themselves. A cursor
goes along the tokens of a text, from the stop of one to the start of the next.
-/

namespace ScriptDebugger

/-- A span from the start of a token to the stop of one; the end of input is not meant. -/
structure Span.Covers (all : List Token) (s : Span) : Prop where
  nonempty : s.start < s.stop
  start : ∃ t ∈ all, t.kind.isEndOfInput = false ∧ t.span.start = s.start
  stop : ∃ t ∈ all, t.kind.isEndOfInput = false ∧ t.span.stop = s.stop

/-- A span that tells where in a text something is wrong. -/
inductive Span.Marks (all : List Token) : Span → Prop
  | token {t : Token} (mem : t ∈ all) : Marks all t.span
  | tokens {s : Span} (covers : s.Covers all) : Marks all s

namespace Phrase

mutual

/-- A phrase whose span covers tokens and holds those of its sub-phrases. -/
inductive Spaced (all : List Token) : Phrase → Prop
  | mk {p : Phrase} (covers : p.span.Covers all)
      (children : Row all p.span.start p.children p.span.stop) : Spaced all p

/-- Spaced phrases that follow one another from `lo` to `hi`. -/
inductive Row (all : List Token) : (lo : Nat) → List Phrase → (hi : Nat) → Prop
  | nil {lo hi : Nat} (le : lo ≤ hi) : Row all lo [] hi
  | cons {lo hi : Nat} {p : Phrase} {ps : List Phrase} (after : lo ≤ p.span.start)
      (first : Spaced all p) (rest : Row all p.span.stop ps hi) : Row all lo (p :: ps) hi

end

variable {all : List Token} {lo mid hi : Nat} {p q : Phrase} {ps qs : List Phrase}

lemma Spaced.covers (h : p.Spaced all) : p.span.Covers all := by
  cases h with
  | mk covers => exact covers

lemma row_nil : Row all lo [] hi ↔ lo ≤ hi := by
  constructor
  · rintro ⟨le⟩
    exact le
  · exact .nil

lemma row_cons : Row all lo (p :: ps) hi ↔
    lo ≤ p.span.start ∧ p.Spaced all ∧ Row all p.span.stop ps hi := by
  constructor
  · intro h
    cases h with
    | cons after first rest => exact ⟨after, first, rest⟩
  · rintro ⟨after, first, rest⟩
    exact .cons after first rest

/-- Phrases with one more after them. -/
lemma row_concat : Row all lo (ps ++ [q]) hi ↔
    Row all lo ps q.span.start ∧ q.Spaced all ∧ q.span.stop ≤ hi := by
  induction ps generalizing lo with
  | nil => simp only [List.nil_append, row_cons, row_nil]
  | cons p ps ih => simp only [List.cons_append, row_cons, ih, and_assoc]

namespace Row

lemma le (h : Row all lo ps hi) : lo ≤ hi := by
  induction ps generalizing lo with
  | nil => exact row_nil.mp h
  | cons p ps ih =>
    obtain ⟨after, first, rest⟩ := row_cons.mp h
    have := first.covers.nonempty
    have := ih rest
    omega

lemma mono {lo' hi' : Nat} (h : Row all lo ps hi) (hlo : lo' ≤ lo) (hhi : hi ≤ hi') :
    Row all lo' ps hi' := by
  induction ps generalizing lo lo' with
  | nil =>
    have := row_nil.mp h
    exact row_nil.mpr (by omega)
  | cons p ps ih =>
    obtain ⟨after, first, rest⟩ := row_cons.mp h
    exact .cons (by omega) first (ih rest (Nat.le_refl _))

lemma append (h : Row all lo ps mid) (h' : Row all mid qs hi) : Row all lo (ps ++ qs) hi := by
  induction ps generalizing lo with
  | nil => exact h'.mono (row_nil.mp h) (Nat.le_refl _)
  | cons p ps ih =>
    obtain ⟨after, first, rest⟩ := row_cons.mp h
    exact .cons after first (ih rest)

lemma inside (h : Row all lo ps hi) (hp : p ∈ ps) : lo ≤ p.span.start ∧ p.span.stop ≤ hi := by
  induction ps generalizing lo with
  | nil => cases hp
  | cons q ps ih =>
    obtain ⟨after, first, rest⟩ := row_cons.mp h
    have := first.covers.nonempty
    have := rest.le
    rcases List.mem_cons.mp hp with rfl | hp
    · exact ⟨after, rest.le⟩
    · have := ih rest hp
      omega

lemma spaced (h : Row all lo ps hi) (hp : p ∈ ps) : p.Spaced all := by
  induction ps generalizing lo with
  | nil => cases hp
  | cons q ps ih =>
    obtain ⟨-, first, rest⟩ := row_cons.mp h
    rcases List.mem_cons.mp hp with rfl | hp
    · exact first
    · exact ih rest hp

/-- Each phrase stops before the later ones start. -/
lemma pairwise (h : Row all lo ps hi) : ps.Pairwise fun p q => p.span.stop ≤ q.span.start := by
  induction ps generalizing lo with
  | nil => exact List.Pairwise.nil
  | cons p ps ih =>
    obtain ⟨-, -, rest⟩ := row_cons.mp h
    exact List.pairwise_cons.mpr ⟨fun q hq => (rest.inside hq).1, ih rest⟩

end Row

lemma Spaced.children (h : p.Spaced all) : Row all p.span.start p.children p.span.stop := by
  cases h with
  | mk covers children => exact children

lemma Spaced.within (h : p.Spaced all) (hq : Within q p) : q.Spaced all := by
  induction hq with
  | self => exact h
  | child _ hc ih => exact ih (h.children.spaced hc)

/-- A phrase from one span to another. -/
lemma row_merge {a b : Span} {kind : NodeKind Phrase} (ha : a.Covers all) (hb : b.Covers all)
    (starts : a.start ≤ b.start) (stops : a.stop ≤ b.stop)
    (children : Row all a.start kind.children b.stop) (low : lo ≤ a.start) (high : b.stop ≤ hi) :
    Row all lo [⟨a.merge b, kind⟩] hi := by
  have merged : a.merge b = ⟨a.start, b.stop⟩ := by
    rw [Span.merge, Nat.min_eq_left starts, Nat.max_eq_right stops]
  rw [merged]
  have hnonempty : a.start < b.stop := by
    have := ha.nonempty
    omega
  exact .cons low (.mk ⟨hnonempty, ha.start, hb.stop⟩ children) (.nil high)

/-- A phrase without sub-phrases. -/
lemma row_leaf {s : Span} {kind : NodeKind Phrase} (hs : s.Covers all)
    (leaf : kind.children = []) (low : lo ≤ s.start) (high : s.stop ≤ hi) :
    Row all lo [⟨s, kind⟩] hi := by
  have children : Row all s.start kind.children s.stop := by
    rw [leaf]
    exact .nil (Nat.le_of_lt hs.nonempty)
  exact .cons low (.mk hs children) (.nil high)

end Phrase

namespace Cursor

/-- A cursor among the tokens of a text. -/
structure Along (all : List Token) (c : Cursor) : Prop where
  suffix : c.tokens <:+ all
  ordered : Token.Ordered c.lastStop c.tokens
  lastStop : c.lastStop = 0 ∨ ∃ t ∈ all, t.kind.isEndOfInput = false ∧ t.span.stop = c.lastStop

variable {all : List Token} {c c' : Cursor}

lemma along_start (h : Token.Ordered 0 all) : (start all).Along all where
  suffix := List.suffix_rfl
  ordered := h
  lastStop := .inl rfl

lemma lastStop_advance (more : c.atEnd = false) : c.advance.lastStop = c.span.stop := by
  simp only [atEnd, kind, current, advance, span] at more ⊢
  cases hc : c.tokens with
  | nil => rw [hc] at more; cases more
  | cons t ts =>
    rw [hc] at more
    simp only [more, Bool.false_eq_true, if_false]

namespace Along

lemma current_mem (h : c.Along all) : c.current ∈ all := by
  have ordered := h.ordered
  refine h.suffix.subset ?_
  cases hc : c.tokens with
  | nil => rw [hc] at ordered; cases ordered
  | cons t ts => simp [current, hc]

lemma marks (h : c.Along all) : c.span.Marks all := .token h.current_mem

lemma lastStop_le (h : c.Along all) : c.lastStop ≤ c.span.start := by
  have ordered := h.ordered
  simp only [span, current]
  cases hc : c.tokens with
  | nil => rw [hc] at ordered; cases ordered
  | cons t ts =>
    rw [hc] at ordered
    cases ordered <;> assumption

lemma covers (h : c.Along all) (more : c.atEnd = false) : c.span.Covers all := by
  have mem := h.current_mem
  refine ⟨?_, ⟨_, mem, more, rfl⟩, ⟨_, mem, more, rfl⟩⟩
  have ordered := h.ordered
  simp only [atEnd, kind, span, current] at more ⊢
  cases hc : c.tokens with
  | nil => rw [hc] at ordered; cases ordered
  | cons t ts =>
    rw [hc] at ordered more
    cases ordered with
    | last ends => exact absurd (ends.symm.trans more) (by decide)
    | token _ _ nonempty => exact nonempty

lemma advance (h : c.Along all) : c.advance.Along all := by
  have mem := h.current_mem
  have ordered := h.ordered
  have suffix := h.suffix
  simp only [current] at mem
  cases hc : c.tokens with
  | nil => rw [hc] at ordered; cases ordered
  | cons t ts =>
    rw [hc] at ordered suffix mem
    cases ordered with
    | last ends after point =>
      rwa [advance_of_atEnd]
      rw [atEnd, kind_of_tokens hc, ends]
    | token more after nonempty rest =>
      rw [advance_of_tokens hc more]
      exact ⟨(List.suffix_cons t ts).trans suffix, rest, .inr ⟨t, mem, more, rfl⟩⟩

lemma lastStop_le_advance (h : c.Along all) : c.lastStop ≤ c.advance.lastStop := by
  cases more : c.atEnd with
  | true => rw [advance_of_atEnd more]
  | false =>
    have := h.lastStop_le
    have := (h.covers more).nonempty
    rw [lastStop_advance more]
    omega

end Along

/-- What begins with a span and stops at the cursor. -/
lemma row_from {s : Span} {kind : NodeKind Phrase} {lo : Nat} (hs : s.Covers all)
    (h : c.Along all) (stops : s.stop ≤ c.lastStop)
    (children : Phrase.Row all s.start kind.children c.lastStop) (low : lo ≤ s.start) :
    Phrase.Row all lo [⟨c.spanFrom s, kind⟩] c.lastStop := by
  have from_eq : c.spanFrom s = ⟨s.start, c.lastStop⟩ := by
    rw [spanFrom, Nat.max_eq_left stops]
  have hnonempty : s.start < c.lastStop := by
    have := hs.nonempty
    omega
  have stop : ∃ t ∈ all, t.kind.isEndOfInput = false ∧ t.span.stop = c.lastStop := by
    rcases h.lastStop with zero | stop
    · omega
    · exact stop
  rw [from_eq]
  exact .cons low (.mk ⟨hnonempty, hs.start, stop⟩ children) (.nil (Nat.le_refl _))

end Cursor

end ScriptDebugger
