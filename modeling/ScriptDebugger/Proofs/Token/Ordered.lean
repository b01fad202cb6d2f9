import ScriptDebugger.Proofs.Token.Moved

/-!
# Tokens in order

The tokens of a text follow one another without overlapping, each takes up some
of the text, and the end of input stands last and takes up nothing. Their spans,
and that of what is no token, begin and end between characters of the text.
-/

namespace ScriptDebugger

/-- The ends of a span are in order, within a text and between its characters. -/
structure Span.LiesIn (s : Span) (text : String) : Prop where
  ordered : s.start ≤ s.stop
  stop_le : s.stop ≤ text.utf8ByteSize
  start_boundary : Boundary text.toList s.start
  stop_boundary : Boundary text.toList s.stop

lemma Boundary.le {cs : List Char} {n : Nat} (h : Boundary cs n) : n ≤ byteLength cs := by
  obtain ⟨ds, ⟨rest, rfl⟩, rfl⟩ := h
  rw [byteLength_append]
  omega

lemma Span.liesIn_of_boundary {s : Span} {text : String} (ordered : s.start ≤ s.stop)
    (start : Boundary text.toList s.start) (stop : Boundary text.toList s.stop) :
    s.LiesIn text where
  ordered := ordered
  stop_le := byteLength_toList text ▸ stop.le
  start_boundary := start
  stop_boundary := stop

namespace Lexeme

lemma size_pos_of_mem_ofChars {cs : List Char} {l : Lexeme} (h : l ∈ ofChars cs) : 0 < l.size := by
  fun_induction ofChars cs with
  | case1 => cases h
  | case2 c cs kind n hextent ih =>
    rcases List.mem_cons.mp h with rfl | h
    · have := c.utf8Size_pos
      rw [size, byteLength_cons]
      omega
    · exact ih h

end Lexeme

namespace Token

/-- Tokens that follow one another from `lo` on. The last one, and no other, is the end of
input. -/
inductive Ordered : (lo : Nat) → List Token → Prop
  | last {lo : Nat} {t : Token} (ends : t.kind.isEndOfInput = true) (after : lo ≤ t.span.start)
      (point : t.span.start = t.span.stop) : Ordered lo [t]
  | token {lo : Nat} {t : Token} {ts : List Token} (more : t.kind.isEndOfInput = false)
      (after : lo ≤ t.span.start) (nonempty : t.span.start < t.span.stop)
      (rest : Ordered t.span.stop ts) : Ordered lo (t :: ts)

variable {offset : Nat} {newline comment : Bool} {ls : List Lexeme} {ts : List Token}

lemma Ordered.ordered_of_mem {lo : Nat} (h : Ordered lo ts) {t : Token} (ht : t ∈ ts) :
    t.span.start ≤ t.span.stop := by
  induction h with
  | last ends after point =>
    obtain rfl := List.mem_singleton.mp ht
    exact Nat.le_of_eq point
  | token more after nonempty rest ih =>
    rcases List.mem_cons.mp ht with rfl | ht
    · exact Nat.le_of_lt nonempty
    · exact ih ht

lemma ordered_ofLexemes {lo : Nat} (h : ofLexemes offset newline comment ls = .ok ts)
    (nonempty : ∀ l ∈ ls, 0 < l.size) (after : lo ≤ offset) : Ordered lo ts := by
  induction ls generalizing offset newline comment ts lo with
  | nil =>
    cases h
    exact .last rfl after rfl
  | cons l ls ih =>
    obtain ⟨first, others⟩ := List.forall_mem_cons.mp nonempty
    rcases ofLexemes_cons_cases h with ⟨kind, rest, hk, hrest, rfl⟩ | ⟨-, hrest⟩
    · refine .token (isEndOfInput_of_kindOf? hk) after ?_ (ih hrest others (Nat.le_refl _))
      dsimp only
      omega
    · exact ih hrest others (by omega)

/-- What is no token begins and ends where characters do. -/
lemma boundary_of_error {cs d : List Char} {e : LexError} (offset_eq : offset = byteLength d)
    (text : d ++ ls.flatMap Lexeme.chars = cs)
    (h : ofLexemes offset newline comment ls = .error e) :
    e.span.start ≤ e.span.stop ∧ Boundary cs e.span.start ∧ Boundary cs e.span.stop := by
  induction ls generalizing offset newline comment d with
  | nil => cases h
  | cons l ls ih =>
    have later : d ++ l.chars ++ ls.flatMap Lexeme.chars = cs := by
      rw [List.append_assoc, ← List.flatMap_cons, text]
    have next : offset + l.size = byteLength (d ++ l.chars) := by
      rw [byteLength_append, offset_eq, Lexeme.size]
    rw [ofLexemes_cons] at h
    split at h
    · cases h
      refine ⟨Nat.le_add_right _ _, ?_, ?_⟩
      · exact ⟨d, ⟨_, text⟩, offset_eq.symm⟩
      · exact ⟨d ++ l.chars, ⟨_, later⟩, next.symm⟩
    · cases hrest : ofLexemes (offset + l.size) false false ls with
      | error e' =>
        rw [hrest] at h
        cases h
        exact ih next later hrest
      | ok rest =>
        rw [hrest] at h
        cases h
    · exact ih next later h

variable {text : String}

theorem ordered_ofText (h : ofText text = .ok ts) : Ordered 0 ts :=
  ordered_ofLexemes h (fun _ => Lexeme.size_pos_of_mem_ofChars) (Nat.le_refl 0)

theorem liesIn_ofText (h : ofText text = .ok ts) {t : Token} (ht : t ∈ ts) :
    t.span.LiesIn text := by
  have whole : [] ++ (Lexeme.ofText text).flatMap Lexeme.chars = text.toList :=
    Lexeme.flatMap_chars_ofChars text.toList
  obtain ⟨start, stop⟩ := boundary_ofLexemes rfl whole h t ht
  exact Span.liesIn_of_boundary ((ordered_ofText h).ordered_of_mem ht) start stop

theorem liesIn_of_error {e : LexError} (h : ofText text = .error e) : e.span.LiesIn text := by
  have whole : [] ++ (Lexeme.ofText text).flatMap Lexeme.chars = text.toList :=
    Lexeme.flatMap_chars_ofChars text.toList
  obtain ⟨ordered, start, stop⟩ := boundary_of_error rfl whole h
  exact Span.liesIn_of_boundary ordered start stop

end Token

end ScriptDebugger
