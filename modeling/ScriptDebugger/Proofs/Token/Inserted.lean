import ScriptDebugger.Proofs.Token.Separated

/-!
# A blank between tokens

A blank that is put into a text between two of its lexemes is a lexeme of its own or
makes the one before or behind it longer. Either way the tokens are those of the text,
and what is behind the blank is moved by its size (`ofText_insertAt`).
-/

namespace ScriptDebugger

/-- The text with the character `w` put in at byte `p`. -/
def insertAt (text : String) (p : Nat) (w : Char) : String :=
  String.ofList (takeBytes p text.toList ++ w :: dropBytes p text.toList)

lemma toList_insertAt {text : String} {before behind : List Char}
    (h : text.toList = before ++ behind) (w : Char) :
    (insertAt text (byteLength before) w).toList = before ++ w :: behind := by
  rw [insertAt, String.toList_ofList, h, takeBytes_append, dropBytes_append]

/-- What a character of one byte that is put in at `p` makes of a token: those that begin there
or later are moved. -/
def Token.makeRoom (p : Nat) (t : Token) : Token :=
  if p ≤ t.span.start then t.move (1 + ·) else t

lemma Token.span_makeRoom (p : Nat) (t : Token) :
    (t.makeRoom p).span = if p ≤ t.span.start then t.span.move (1 + ·) else t.span := by
  rw [makeRoom]
  split <;> rfl

namespace Lexeme

variable {cs after : List Char} {w : Char} {l : Lexeme} {ls : List Lexeme}

lemma run_insert {p : Char → Bool} (inside : p w = true)
    (whole : run p (cs ++ after) = cs.length) : run p (cs ++ w :: after) = cs.length + 1 := by
  induction cs with
  | nil =>
    have none : run p after = 0 := whole
    rw [List.nil_append, run_cons, if_pos inside, none, List.length_nil]
  | cons c cs ih =>
    rw [List.cons_append, run_cons, List.length_cons] at whole
    split at whole
    case isTrue hc =>
      have later := ih (by omega)
      rw [List.cons_append, run_cons, if_pos hc, later, List.length_cons]
    case isFalse => omega

lemma extent_blank (hw : isBlank w = true) (cs : List Char) :
    extent w cs = (.blank, run isBlank cs) := by
  simp [extent, hw]

lemma extent_takesIn {c : Char} {ds : List Char} (takes : (extent c (ds ++ after)).1.takesIn w = true)
    (whole : (extent c (ds ++ after)).2 = ds.length) :
    extent c (ds ++ w :: after) = ((extent c (ds ++ after)).1, ds.length + 1) := by
  have trivia : (extent c (ds ++ after)).1.isTrivia = true := by
    cases hk : (extent c (ds ++ after)).1 with
    | blank | lineComment => rfl
    | _ => rw [hk] at takes; cases takes
  obtain ⟨blank, h⟩ | ⟨-, h⟩ | ⟨-, h⟩ | ⟨es, rfl, text, h⟩ | ⟨es, -, -, -, h⟩ :=
    extent_trivia_cases trivia
  all_goals rw [h] at takes whole ⊢
  · rw [extent_blank blank, run_insert takes whole]
  · cases takes
  · cases takes
  · cases ds with
    | nil => simp at whole
    | cons d ds =>
      obtain ⟨rfl, rfl⟩ := List.cons.inj text
      have inner : run (fun d => !isLineBreak d) (ds ++ after) = ds.length :=
        Nat.succ.inj whole
      have later := run_insert (p := fun d => !isLineBreak d) takes inner
      rw [List.cons_append, extent_slash, List.head?_cons, if_pos rfl, List.tail_cons, later,
        List.length_cons, Nat.add_comm]
  · cases takes

/-- A lexeme that takes a blank in ends with it. -/
lemma ofChars_takesIn (first : ofChars cs = l :: ls) (takes : l.kind.takesIn w = true) :
    ofChars (l.chars ++ w :: ls.flatMap chars) = ⟨l.kind, l.chars ++ [w]⟩ :: ls := by
  have rest_of : ofChars cs = [l] ++ ls := first
  obtain ⟨c, ds, hl, hextent⟩ := extent_of_ofChars first
  have whole : (extent c (ds ++ ls.flatMap chars)).2 = ds.length := by rw [hextent]
  have longer := extent_takesIn (by rwa [hextent]) whole
  have spelled : (⟨l.kind, l.chars ++ [w]⟩ : Lexeme).chars = c :: (ds ++ [w]) := by
    rw [hl, List.cons_append]
  have extent' : extent c (ds ++ [w] ++ ls.flatMap chars) = (l.kind, (ds ++ [w]).length) := by
    rw [List.append_assoc, List.singleton_append, longer, hextent, List.length_append,
      List.length_singleton]
  have read := ofChars_eq_cons spelled extent'
  rwa [ofChars_of_append rest_of, List.append_assoc, List.singleton_append] at read

end Lexeme

namespace Token

variable {offset : Nat} {newline comment : Bool} {ls ls' : List Lexeme} {ts : List Token}
  {w : Char} {text : String}

/-- What is read alike is read alike behind other lexemes. -/
lemma ofLexemes_append_congr {xs ys : List Lexeme}
    (h : ∀ offset newline comment,
      ofLexemes offset newline comment xs = ofLexemes offset newline comment ys) :
    ofLexemes offset newline comment (ls ++ xs) = ofLexemes offset newline comment (ls ++ ys) := by
  induction ls generalizing offset newline comment with
  | nil => exact h offset newline comment
  | cons l ls ih => simp only [List.cons_append, ofLexemes_cons, ih]

lemma ofLexemes_blank (offset : Nat) (newline comment : Bool) (cs : List Char) (ls : List Lexeme) :
    ofLexemes offset newline comment (⟨.blank, cs⟩ :: ls) =
      ofLexemes (offset + byteLength cs) newline comment ls := by
  rw [ofLexemes_cons]
  simp only [kindOf?, bringsNewline, bringsComment, Bool.or_false]
  rfl

/-- Blanks at the start of a text are skipped. -/
lemma ofLexemes_skip (offset : Nat) (newline comment : Bool) (cs : List Char) :
    ofLexemes offset newline comment (Lexeme.ofChars cs) =
      ofLexemes (offset + byteLength (cs.takeWhile Lexeme.isBlank)) newline comment
        (Lexeme.ofChars (cs.dropWhile Lexeme.isBlank)) := by
  cases cs with
  | nil => rfl
  | cons c cs =>
    by_cases blank : Lexeme.isBlank c = true
    · rw [Lexeme.ofChars_cons, Lexeme.extent_blank blank, Lexeme.take_run, Lexeme.drop_run,
        ofLexemes_blank, List.takeWhile_cons_of_pos blank, List.dropWhile_cons_of_pos blank]
    · rw [List.takeWhile_cons_of_neg blank, List.dropWhile_cons_of_neg blank]
      rfl

lemma ofLexemes_cons_blank (blank : Lexeme.isBlank w = true) (cs : List Char) :
    ofLexemes offset newline comment (Lexeme.ofChars (w :: cs)) =
      ofLexemes offset newline comment (⟨.blank, [w]⟩ :: Lexeme.ofChars cs) := by
  rw [ofLexemes_blank, ofLexemes_skip (offset + byteLength [w]), Lexeme.ofChars_cons,
    Lexeme.extent_blank blank, Lexeme.take_run, Lexeme.drop_run, ofLexemes_blank,
    ← List.singleton_append, byteLength_append, Nat.add_assoc]

/-- A lexeme that has taken a blank in is read like the lexeme and the blank. -/
lemma ofLexemes_takesIn {l : Lexeme} (takes : l.kind.takesIn w = true) :
    ofLexemes offset newline comment (⟨l.kind, l.chars ++ [w]⟩ :: ls) =
      ofLexemes offset newline comment (l :: ⟨.blank, [w]⟩ :: ls) := by
  obtain ⟨kind, chars⟩ := l
  have size : (⟨kind, chars ++ [w]⟩ : Lexeme).size = byteLength chars + byteLength [w] :=
    byteLength_append chars [w]
  rw [ofLexemes_cons, ofLexemes_cons, size, ← Nat.add_assoc]
  cases kind with
  | blank | lineComment =>
    simp only [kindOf?, ofLexemes_blank]
    rfl
  | _ => cases takes

/-- A blank that is put in between two lexemes is read as a lexeme of its own. -/
lemma ofLexemes_insert (blank : Lexeme.isBlank w = true)
    (closed : ∀ l ∈ ls, l.kind.isOpen = false) {cs : List Char}
    (split : Lexeme.ofChars cs = ls ++ ls') :
    ofLexemes offset newline comment
        (Lexeme.ofChars (ls.flatMap Lexeme.chars ++ w :: ls'.flatMap Lexeme.chars)) =
      ofLexemes offset newline comment (ls ++ ⟨.blank, [w]⟩ :: ls') := by
  have separator : Lexeme.isSeparator w = true := by rw [Lexeme.isSeparator, blank, Bool.or_true]
  have feed : w ≠ '\n' := by rintro rfl; cases blank
  have behind := Lexeme.ofChars_of_append split
  rcases List.eq_nil_or_concat ls with rfl | ⟨before, l, rfl⟩
  · rw [List.flatMap_nil, List.nil_append, List.nil_append, ofLexemes_cons_blank blank, behind]
  · rw [List.concat_eq_append] at closed split ⊢
    obtain ⟨others, last⟩ := List.forall_mem_append.mp closed
    rw [List.append_assoc, List.singleton_append] at split
    have first := Lexeme.ofChars_of_append split
    have earlier :=
      Lexeme.ofChars_append_last separator (ls'.flatMap Lexeme.chars) split others
    rw [List.flatMap_append, List.flatMap_singleton, List.append_assoc, earlier,
      List.append_assoc, List.singleton_append]
    apply ofLexemes_append_congr
    intro offset newline comment
    cases takes : l.kind.takesIn w with
    | true => rw [Lexeme.ofChars_takesIn first takes, ofLexemes_takesIn takes]
    | false =>
      have closed := last l (List.mem_singleton_self l)
      rw [Lexeme.ofChars_append_separator separator _ first closed takes (.inr feed)]
      simp only [ofLexemes_cons _ _ _ l, ofLexemes_cons_blank blank, behind]

/-- A token begins and ends where lexemes do. -/
lemma exists_split_of_mem {t : Token} {p : Nat}
    (h : ofLexemes offset newline comment ls = .ok ts) (ht : t ∈ ts)
    (place : p = t.span.start ∨ p = t.span.stop) :
    ∃ before behind, ls = before ++ behind ∧ offset + totalSize before = p := by
  induction ls generalizing offset newline comment ts with
  | nil =>
    cases h
    obtain rfl := List.mem_singleton.mp ht
    refine ⟨[], [], rfl, ?_⟩
    rcases place with rfl | rfl <;> rfl
  | cons l ls ih =>
    -- a place further on lies between the same lexemes, with `l` before them
    have later {newline comment : Bool} {ts : List Token}
        (h : ofLexemes (offset + l.size) newline comment ls = .ok ts) (ht : t ∈ ts) :
        ∃ before behind, l :: ls = before ++ behind ∧ offset + totalSize before = p := by
      obtain ⟨before, behind, rfl, hp⟩ := ih h ht
      refine ⟨l :: before, behind, rfl, ?_⟩
      rw [totalSize_cons, ← Nat.add_assoc, hp]
    rcases ofLexemes_cons_cases h with ⟨kind, rest, -, hrest, rfl⟩ | ⟨-, hrest⟩
    · rcases List.mem_cons.mp ht with rfl | ht
      · rcases place with rfl | rfl
        · exact ⟨[], l :: ls, rfl, rfl⟩
        · exact ⟨[l], ls, rfl, by rw [totalSize_cons]; rfl⟩
      · exact later hrest ht
    · exact later hrest ht

lemma utf8Size_blank (blank : Lexeme.isBlank w = true) : w.utf8Size = 1 := by
  rcases Lexeme.blank_cases blank with rfl | rfl | rfl | rfl <;> rfl

lemma utf8ByteSize_insertAt {p : Nat} (boundary : Boundary text.toList p)
    (blank : Lexeme.isBlank w = true) :
    (insertAt text p w).utf8ByteSize = text.utf8ByteSize + 1 := by
  obtain ⟨before, ⟨behind, split⟩, rfl⟩ := boundary
  rw [← byteLength_toList, ← byteLength_toList, toList_insertAt split.symm, ← split,
    byteLength_append, byteLength_append, byteLength_cons, utf8Size_blank blank]
  omega

/-- What is read before a place between lexemes ends there, and what is read behind begins there
or later. -/
lemma bounds_of_ofLexemes {cs : List Char} {us vs : List Token} {newline' comment' : Bool}
    (split : Lexeme.ofChars cs = ls ++ ls')
    (before : ∀ ls'', ofLexemes 0 false false (ls ++ ls'') =
      (ofLexemes (totalSize ls) newline' comment' ls'').map (us ++ ·))
    (behind : ofLexemes (totalSize ls) newline' comment' ls' = .ok vs) :
    (∀ u ∈ us, u.span.stop ≤ totalSize ls) ∧ ∀ v ∈ vs, totalSize ls ≤ v.span.start := by
  have nonempty : ∀ l ∈ ls ++ ls', 0 < l.size := fun l hl =>
    Lexeme.size_pos_of_mem_ofChars (split ▸ hl)
  obtain ⟨first, second⟩ := List.forall_mem_append.mp nonempty
  constructor
  · intro u hu
    have alone := before []
    rw [List.append_nil] at alone
    have ordered := ordered_ofLexemes alone first (Nat.le_refl 0)
    obtain ⟨-, -, apart⟩ := List.pairwise_append.mp ordered.pairwise
    exact apart u hu _ (List.mem_singleton_self _)
  · intro v hv
    exact (ordered_ofLexemes behind second (Nat.le_refl _)).le_start hv

lemma map_makeRoom {p : Nat} {us vs : List Token} (ordered : Ordered 0 (us ++ vs))
    (inner : ∀ u ∈ us, u.kind.isEndOfInput = false) (before : ∀ u ∈ us, u.span.stop ≤ p)
    (behind : ∀ v ∈ vs, p ≤ v.span.start) :
    (us ++ vs).map (makeRoom p) = us ++ vs.map (move (1 + ·)) := by
  have first : us.map (makeRoom p) = us.map id := by
    apply List.map_congr_left
    intro u hu
    have nonempty := ordered.nonempty (List.mem_append_left vs hu) (inner u hu)
    have stop := before u hu
    rw [makeRoom, if_neg (by omega), id]
  have second : vs.map (makeRoom p) = vs.map (move (1 + ·)) := by
    apply List.map_congr_left
    intro v hv
    rw [makeRoom, if_pos (behind v hv)]
  rw [List.map_append, first, List.map_id, second]

/-- A blank at the start or the end of a token leaves the tokens as they are and moves those that
begin there or later. -/
theorem ofText_insertAt {p : Nat} (lexed : ofText text = .ok ts)
    (place : ∃ t ∈ ts, p = t.span.start ∨ p = t.span.stop)
    (blank : Lexeme.isBlank w = true) :
    ofText (insertAt text p w) = .ok (ts.map (makeRoom p)) := by
  obtain ⟨t, ht, place⟩ := place
  obtain ⟨before, behind, split, hp⟩ := exists_split_of_mem lexed ht place
  rw [Nat.zero_add] at hp
  have ordered := ordered_ofText lexed
  rw [ofText, split] at lexed
  have closed := (List.forall_mem_append.mp (closed_of_ofLexemes lexed)).1
  obtain ⟨us, vs, newline, comment, rfl, inner, hvs, append⟩ := ofLexemes_append lexed
  rw [Nat.zero_add] at hvs append
  obtain ⟨ends, begins⟩ := bounds_of_ofLexemes split append hvs
  have text_eq := congrArg (List.flatMap Lexeme.chars) split
  rw [Lexeme.ofText, Lexeme.flatMap_chars_ofChars, List.flatMap_append] at text_eq
  have inserted := toList_insertAt text_eq w
  rw [← totalSize, hp] at inserted
  have moved := ofLexemes_move (f := (1 + ·)) (fun k => (Nat.add_assoc _ _ k).symm) hvs
  have size : byteLength [w] = 1 := by
    rw [byteLength_cons, utf8Size_blank blank]
    rfl
  rw [ofText, Lexeme.ofText, inserted, ofLexemes_insert blank closed split, append,
    ofLexemes_blank, size, Nat.add_comm, moved,
    map_makeRoom ordered inner (hp ▸ ends) (hp ▸ begins)]
  rfl

end Token

end ScriptDebugger
