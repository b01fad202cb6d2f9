import ScriptDebugger.Proofs.Token.Lexemes
import ScriptDebugger.Token.Stream

/-!
# Tokens of a text inside another

Reading lexemes at another offset moves the spans of the tokens and nothing else,
and what follows a text in a new line does not change its tokens. So a text that
stands inside another one, in lines of its own, gives there the tokens that it
gives alone, with their spans moved (`ofLexemes_inside`), and slices between the
moved places are the slices of the text (`sliceBytes_inside`).
-/

namespace ScriptDebugger

/-- The span between the images of its ends. -/
def Span.move (f : Nat → Nat) (s : Span) : Span := ⟨f s.start, f s.stop⟩

/-- Identifiers, keywords and reserved words. -/
def TokenKind.isWord : TokenKind → Bool
  | .ident _ | .keyword _ | .reserved _ => true
  | _ => false

/-- A place in a text where a character begins or the text ends. -/
def Boundary (cs : List Char) (n : Nat) : Prop := ∃ ds, ds <+: cs ∧ byteLength ds = n

lemma dropBytes_append (ds rest : List Char) : dropBytes (byteLength ds) (ds ++ rest) = rest := by
  induction ds with
  | nil => cases rest <;> rfl
  | cons c ds ih =>
    obtain ⟨k, hk⟩ := Nat.exists_eq_add_of_le' c.utf8Size_pos
    have left : k + byteLength ds + 1 - c.utf8Size = byteLength ds := by omega
    rw [byteLength_cons, hk, Nat.add_right_comm, List.cons_append, dropBytes, left, ih]

lemma takeBytes_append (ds rest : List Char) : takeBytes (byteLength ds) (ds ++ rest) = ds := by
  induction ds with
  | nil => cases rest <;> rfl
  | cons c ds ih =>
    obtain ⟨k, hk⟩ := Nat.exists_eq_add_of_le' c.utf8Size_pos
    have left : k + byteLength ds + 1 - c.utf8Size = byteLength ds := by omega
    rw [byteLength_cons, hk, Nat.add_right_comm, List.cons_append, takeBytes, left, ih]

/-- Between two places where characters begin stand the characters between them. -/
lemma sliceBytes_of_prefix {cs ds gs : List Char} (hd : ds <+: cs) (hg : gs <+: cs) :
    sliceBytes cs (byteLength ds) (byteLength gs) = gs.drop ds.length := by
  rcases List.prefix_or_prefix_of_prefix hd hg with ⟨hs, rfl⟩ | ⟨hs, rfl⟩
  · obtain ⟨rest, rfl⟩ := hg
    rw [sliceBytes, List.append_assoc, dropBytes_append, byteLength_append,
      Nat.add_sub_cancel_left, takeBytes_append, List.drop_left]
  · have none : byteLength gs - byteLength (gs ++ hs) = 0 := by
      rw [byteLength_append]
      omega
    rw [sliceBytes, none, List.drop_of_length_le (by simp)]
    cases dropBytes (byteLength (gs ++ hs)) cs <;> rfl

/-- A part of a text is the same part of a longer text. -/
lemma sliceBytes_inside {cs : List Char} {start stop : Nat} (hstart : Boundary cs start)
    (hstop : Boundary cs stop) (before after : List Char) :
    sliceBytes (before ++ cs ++ after) (byteLength before + start) (byteLength before + stop) =
      sliceBytes cs start stop := by
  obtain ⟨ds, hd, rfl⟩ := hstart
  obtain ⟨gs, hg, rfl⟩ := hstop
  have inside {xs : List Char} (hx : xs <+: cs) : before ++ xs <+: before ++ cs ++ after :=
    ((List.prefix_append_right_inj before).mpr hx).trans (List.prefix_append _ after)
  rw [← byteLength_append, ← byteLength_append, sliceBytes_of_prefix (inside hd) (inside hg),
    sliceBytes_of_prefix hd hg, List.length_append, List.drop_append]
  simp

namespace Token

def move (f : Nat → Nat) (t : Token) : Token := { t with span := t.span.move f }

def afterNewline (t : Token) : Token := { t with newlineBefore := true }

/-- Length of lexemes in bytes. -/
def totalSize (ls : List Lexeme) : Nat := byteLength (ls.flatMap Lexeme.chars)

lemma totalSize_nil : totalSize [] = 0 := rfl

lemma totalSize_cons (l : Lexeme) (ls : List Lexeme) :
    totalSize (l :: ls) = l.size + totalSize ls := by
  rw [totalSize, List.flatMap_cons, byteLength_append, totalSize, Lexeme.size]

lemma totalSize_append (ls ls' : List Lexeme) :
    totalSize (ls ++ ls') = totalSize ls + totalSize ls' := by
  rw [totalSize, List.flatMap_append, byteLength_append, totalSize, totalSize]

lemma totalSize_ofChars (cs : List Char) : totalSize (Lexeme.ofChars cs) = byteLength cs := by
  rw [totalSize, Lexeme.flatMap_chars_ofChars]

lemma closed_of_kindOf? {l : Lexeme} {k : Option TokenKind} (h : kindOf? l = .ok k) :
    l.kind.isOpen = false := by
  obtain ⟨kind, chars⟩ := l
  cases kind <;> first | rfl | cases h

lemma isWord_ofWord (word : String) : (ofWord word).isWord = true := by
  simp only [ofWord]
  split
  · rfl
  · split <;> rfl

lemma isEndOfInput_ofWord (word : String) : (ofWord word).isEndOfInput = false := by
  have read := isWord_ofWord word
  revert read
  cases ofWord word <;> simp [TokenKind.isWord, TokenKind.isEndOfInput]

lemma map_eq_ok {ε α β : Type} {f : α → β} {r : Except ε α} {b : β} (h : r.map f = .ok b) :
    ∃ a, r = .ok a ∧ f a = b := by
  cases r with
  | error e => cases h
  | ok a => exact ⟨a, rfl, Except.ok.inj h⟩

/-- What a token is read from. -/
lemma kindOf?_some_cases {l : Lexeme} {k : TokenKind} (h : kindOf? l = .ok (some k)) :
    l.kind = .word ∧ k = ofWord l.text ∨
    (∃ x, l.kind = .number ∧ readNumber l.chars = .ok x ∧ k = .number x) ∨
    (∃ s, l.kind = .string ∧ readString l.chars = .ok s ∧ k = .string s) ∨
    ∃ p, l.kind = .punct p ∧ k = .punct p := by
  obtain ⟨kind, chars⟩ := l
  cases kind with
  | word =>
    cases h
    exact .inl ⟨rfl, rfl⟩
  | number =>
    obtain ⟨x, read, hk⟩ := map_eq_ok h
    exact .inr (.inl ⟨x, rfl, read, (Option.some.inj hk).symm⟩)
  | string =>
    obtain ⟨s, read, hk⟩ := map_eq_ok h
    exact .inr (.inr (.inl ⟨s, rfl, read, (Option.some.inj hk).symm⟩))
  | punct p =>
    cases h
    exact .inr (.inr (.inr ⟨p, rfl, rfl⟩))
  | _ => cases h

/-- No lexeme is the end of input. -/
lemma isEndOfInput_of_kindOf? {l : Lexeme} {k : TokenKind} (h : kindOf? l = .ok (some k)) :
    k.isEndOfInput = false := by
  obtain ⟨-, rfl⟩ | ⟨x, -, -, rfl⟩ | ⟨s, -, -, rfl⟩ | ⟨p, -, rfl⟩ := kindOf?_some_cases h
  · exact isEndOfInput_ofWord _
  all_goals rfl

variable {offset : Nat} {newline comment : Bool} {l : Lexeme} {ls : List Lexeme} {ts : List Token}

/-- A lexeme is an error, a token, or a mark on the token after it. -/
lemma ofLexemes_cons (offset : Nat) (newline comment : Bool) (l : Lexeme) (ls : List Lexeme) :
    ofLexemes offset newline comment (l :: ls) =
      match kindOf? l with
      | .error fault => .error ⟨fault, ⟨offset, offset + l.size⟩⟩
      | .ok (some kind) =>
        (ofLexemes (offset + l.size) false false ls).map
          (⟨kind, ⟨offset, offset + l.size⟩, newline, comment⟩ :: ·)
      | .ok none =>
        ofLexemes (offset + l.size) (newline || bringsNewline l) (comment || bringsComment l) ls :=
  rfl

lemma ofLexemes_lineBreak (offset : Nat) (newline comment : Bool) (chars : List Char)
    (ls : List Lexeme) :
    ofLexemes offset newline comment (⟨.newline, chars⟩ :: ls) =
      ofLexemes (offset + byteLength chars) true comment ls := by
  rw [ofLexemes_cons]
  simp only [kindOf?, bringsNewline, bringsComment, Bool.or_true, Bool.or_false]
  rfl

/-- What can be read begins with a token, or with a mark on what comes next. -/
lemma ofLexemes_cons_cases (h : ofLexemes offset newline comment (l :: ls) = .ok ts) :
    (∃ kind rest, kindOf? l = .ok (some kind) ∧
        ofLexemes (offset + l.size) false false ls = .ok rest ∧
        ts = ⟨kind, ⟨offset, offset + l.size⟩, newline, comment⟩ :: rest) ∨
      kindOf? l = .ok none ∧
        ofLexemes (offset + l.size) (newline || bringsNewline l) (comment || bringsComment l) ls =
          .ok ts := by
  rw [ofLexemes_cons] at h
  split at h
  case h_1 => cases h
  case h_2 kind hk =>
    obtain ⟨rest, hrest, rfl⟩ := map_eq_ok h
    exact .inl ⟨kind, rest, hk, hrest, rfl⟩
  case h_3 hk => exact .inr ⟨hk, h⟩

lemma closed_of_ofLexemes (h : ofLexemes offset newline comment ls = .ok ts) :
    ∀ l ∈ ls, l.kind.isOpen = false := by
  induction ls generalizing offset newline comment ts with
  | nil => simp
  | cons l ls ih =>
    rcases ofLexemes_cons_cases h with ⟨kind, rest, hk, hrest, -⟩ | ⟨hk, hrest⟩
    · exact List.forall_mem_cons.mpr ⟨closed_of_kindOf? hk, ih hrest⟩
    · exact List.forall_mem_cons.mpr ⟨closed_of_kindOf? hk, ih hrest⟩

/-- Reading goes on after some lexemes in a way that depends on them alone. -/
lemma ofLexemes_append {ls' : List Lexeme}
    (h : ofLexemes offset newline comment (ls ++ ls') = .ok ts) :
    ∃ us ts' newline' comment', ts = us ++ ts' ∧ (∀ u ∈ us, u.kind.isEndOfInput = false) ∧
      ofLexemes (offset + totalSize ls) newline' comment' ls' = .ok ts' ∧
      ∀ ls'', ofLexemes offset newline comment (ls ++ ls'') =
        (ofLexemes (offset + totalSize ls) newline' comment' ls'').map (us ++ ·) := by
  induction ls generalizing offset newline comment ts with
  | nil =>
    refine ⟨[], ts, newline, comment, rfl, by simp, h, fun ls'' => ?_⟩
    simp [totalSize_nil, Except.map]
    cases ofLexemes offset newline comment ls'' <;> rfl
  | cons l ls ih =>
    rw [List.cons_append] at h
    rcases ofLexemes_cons_cases h with ⟨kind, rest, hk, hrest, rfl⟩ | ⟨hk, hrest⟩
    · obtain ⟨us, ts', newline', comment', rfl, inner, hts', append⟩ := ih hrest
      refine ⟨_ :: us, ts', newline', comment', rfl, ?_, ?_, fun ls'' => ?_⟩
      · exact List.forall_mem_cons.mpr ⟨isEndOfInput_of_kindOf? hk, inner⟩
      · rwa [totalSize_cons, ← Nat.add_assoc]
      · rw [List.cons_append, ofLexemes_cons, hk, totalSize_cons, ← Nat.add_assoc]
        dsimp only
        rw [append ls'']
        cases ofLexemes (offset + l.size + totalSize ls) newline' comment' ls'' <;> rfl
    · obtain ⟨us, ts', newline', comment', rfl, inner, hts', append⟩ := ih hrest
      refine ⟨us, ts', newline', comment', rfl, inner, ?_, fun ls'' => ?_⟩
      · rwa [totalSize_cons, ← Nat.add_assoc]
      · rw [List.cons_append, ofLexemes_cons, hk, totalSize_cons, ← Nat.add_assoc]
        exact append ls''

/-- At another offset, the spans are moved. -/
lemma ofLexemes_move {f : Nat → Nat} {offset' : Nat} (shift : ∀ k, f (offset + k) = offset' + k)
    (h : ofLexemes offset newline comment ls = .ok ts) :
    ofLexemes offset' newline comment ls = .ok (ts.map (move f)) := by
  induction ls generalizing offset offset' newline comment ts with
  | nil =>
    cases h
    have here : f offset = offset' := shift 0
    rw [List.map_singleton, move, Span.move, Span.point, here]
    rfl
  | cons l ls ih =>
    have later (k : Nat) : f (offset + l.size + k) = offset' + l.size + k := by
      rw [Nat.add_assoc, shift, Nat.add_assoc]
    rw [ofLexemes_cons]
    rcases ofLexemes_cons_cases h with ⟨kind, rest, hk, hrest, rfl⟩ | ⟨hk, hrest⟩
    · have here : f offset = offset' := shift 0
      simp only [hk, ih later hrest, List.map_cons, move, Span.move, here, shift]
      rfl
    · simp only [hk, ih later hrest]

/-- A line break before all lexemes marks the first token. -/
lemma ofLexemes_newline (h : ofLexemes offset newline comment ls = .ok ts) :
    ofLexemes offset true comment ls = .ok (ts.modifyHead afterNewline) := by
  induction ls generalizing offset newline comment ts with
  | nil =>
    cases h
    rfl
  | cons l ls ih =>
    rw [ofLexemes_cons]
    rcases ofLexemes_cons_cases h with ⟨kind, rest, hk, hrest, rfl⟩ | ⟨hk, hrest⟩
    · simp only [hk, hrest]
      rfl
    · simp only [hk, Bool.true_or, ih hrest]

/-- Tokens begin and end where characters do. -/
lemma boundary_ofLexemes {cs d : List Char} (offset_eq : offset = byteLength d)
    (text : d ++ ls.flatMap Lexeme.chars = cs)
    (h : ofLexemes offset newline comment ls = .ok ts) :
    ∀ t ∈ ts, Boundary cs t.span.start ∧ Boundary cs t.span.stop := by
  induction ls generalizing offset newline comment ts d with
  | nil =>
    cases h
    have here : Boundary cs offset := ⟨d, ⟨_, text⟩, offset_eq.symm⟩
    intro t ht
    cases List.mem_singleton.mp ht
    exact ⟨here, here⟩
  | cons l ls ih =>
    have later : d ++ l.chars ++ ls.flatMap Lexeme.chars = cs := by
      rw [List.append_assoc, ← List.flatMap_cons, text]
    have next : offset + l.size = byteLength (d ++ l.chars) := by
      rw [byteLength_append, offset_eq, Lexeme.size]
    rcases ofLexemes_cons_cases h with ⟨kind, rest, hk, hrest, rfl⟩ | ⟨hk, hrest⟩
    · refine List.forall_mem_cons.mpr ⟨⟨⟨d, ⟨_, text⟩, offset_eq.symm⟩, ?_⟩, ih next later hrest⟩
      exact ⟨d ++ l.chars, ⟨_, later⟩, next.symm⟩
    · exact ih next later hrest

/-- What follows a text in a new line does not change its tokens. -/
lemma ofLexemes_before_newline {cs : List Char}
    (h : ofLexemes offset newline comment (Lexeme.ofChars cs) = .ok ts) :
    ∃ us last comment', ts = us ++ [last] ∧ last.kind = .endOfInput ∧
      (∀ u ∈ us, u.kind.isEndOfInput = false) ∧
      ∀ rest, ofLexemes offset newline comment (Lexeme.ofChars (cs ++ '\n' :: rest)) =
        (ofLexemes (offset + byteLength cs + 1) true comment' (Lexeme.ofChars rest)).map
          (us ++ ·) := by
  have closed := closed_of_ofLexemes h
  by_cases carriage : ∃ ls, Lexeme.ofChars cs = ls ++ [⟨.newline, ['\r']⟩]
  · obtain ⟨ls, hls⟩ := carriage
    have size : totalSize ls + 1 = byteLength cs := by
      rw [← totalSize_ofChars, hls, totalSize_append]
      rfl
    rw [hls] at h
    obtain ⟨us, ts', newline', comment', rfl, inner, hlast, append⟩ := ofLexemes_append h
    rw [ofLexemes_lineBreak] at hlast
    cases hlast
    refine ⟨us, _, comment', rfl, rfl, inner, fun rest => ?_⟩
    -- whether the line feed is a lexeme of its own or the second half of one
    rcases Lexeme.ofChars_append cs rest closed with split | ⟨ls', hls', split⟩
    · rw [split, hls, List.append_assoc, append, List.singleton_append, ofLexemes_lineBreak,
        ofLexemes_lineBreak, ← size]
      rfl
    · obtain rfl : ls = ls' := (List.append_inj' (hls.symm.trans hls') rfl).1
      rw [split, append, ofLexemes_lineBreak, ← size]
      rfl
  · have split : ∀ rest, Lexeme.ofChars (cs ++ '\n' :: rest) =
        Lexeme.ofChars cs ++ ⟨.newline, ['\n']⟩ :: Lexeme.ofChars rest := fun rest =>
      (Lexeme.ofChars_append cs rest closed).resolve_right fun ⟨ls, hls, _⟩ => carriage ⟨ls, hls⟩
    rw [← List.append_nil (Lexeme.ofChars cs)] at h
    obtain ⟨us, ts', newline', comment', rfl, inner, hlast, append⟩ := ofLexemes_append h
    cases hlast
    refine ⟨us, _, comment', rfl, rfl, inner, fun rest => ?_⟩
    rw [split, append, totalSize_ofChars, ofLexemes_lineBreak]
    rfl

end Token

end ScriptDebugger
