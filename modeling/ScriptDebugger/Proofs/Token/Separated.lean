import Mathlib.Data.List.TakeWhile
import ScriptDebugger.Proofs.Token.Ordered

/-!
# Text between tokens

What the tokens of a text leave out is made of blanks, line breaks and complete
comments, and the marks of a token tell whether there is a line break or a comment
among what stands before it (`tokens_account`).
-/

namespace ScriptDebugger

/-- The text `gap`, which `after` follows, is made of blanks, line breaks and complete comments;
`comment` tells whether there are comments among them. -/
inductive Separated (after : List Char) : (comment : Bool) → (gap : List Char) → Prop
  | nil : Separated after false []
  | blank {comment : Bool} {c : Char} {gap : List Char} (blank : c ∈ [' ', '\t', '\x0b', '\x0c'])
      (rest : Separated after comment gap) : Separated after comment (c :: gap)
  | lineBreak {comment : Bool} {c : Char} {gap : List Char} (breaks : c = '\n' ∨ c = '\r')
      (rest : Separated after comment gap) : Separated after comment (c :: gap)
  | lineComment {comment : Bool} {body gap : List Char} (inLine : ∀ c ∈ body, c ≠ '\n' ∧ c ≠ '\r')
      (ends : ∀ c ∈ (gap ++ after).head?, c = '\n' ∨ c = '\r')
      (rest : Separated after comment gap) : Separated after true ('/' :: '/' :: (body ++ gap))
  | blockComment {comment : Bool} {body gap : List Char} (closed : ¬ ['*', '/'] <:+: body ++ ['*'])
      (rest : Separated after comment gap) :
      Separated after true ('/' :: '*' :: (body ++ '*' :: '/' :: gap))

namespace Lexeme

variable {after gap cs : List Char} {comment : Bool}

lemma separated_blanks {bs : List Char} (blanks : ∀ b ∈ bs, isBlank b = true)
    (rest : Separated after comment gap) : Separated after comment (bs ++ gap) := by
  induction bs with
  | nil => exact rest
  | cons b bs ih =>
    obtain ⟨first, others⟩ := List.forall_mem_cons.mp blanks
    have blank : b ∈ [' ', '\t', '\x0b', '\x0c'] := by simpa [isBlank, or_assoc] using first
    exact .blank blank (ih others)

lemma take_run (p : Char → Bool) (cs : List Char) : cs.take (run p cs) = cs.takeWhile p :=
  (List.prefix_iff_eq_take.mp (List.takeWhile_prefix p)).symm

lemma drop_run (p : Char → Bool) (cs : List Char) : cs.drop (run p cs) = cs.dropWhile p := by
  have whole : cs.takeWhile p ++ cs.drop (run p cs) = cs.takeWhile p ++ cs.dropWhile p := by
    rw [← take_run, List.take_append_drop, take_run, List.takeWhile_append_dropWhile]
  exact List.append_cancel_left whole

/-- A block comment ends with the first closing mark in it. -/
lemma commentTail_closed (closed : (commentTail cs).1 = true) :
    ∃ body, cs.take (commentTail cs).2 = body ++ ['*', '/'] ∧
      ¬ ['*', '/'] <:+: body ++ ['*'] := by
  induction cs with
  | nil => cases closed
  | cons c cs ih =>
    rw [commentTail_cons] at closed ⊢
    split
    case isTrue mark =>
      obtain ⟨rfl, hd⟩ := mark
      obtain ⟨ds, rfl⟩ := List.head?_eq_some_iff.mp hd
      exact ⟨[], rfl, by decide⟩
    case isFalse mark =>
      rw [if_neg mark] at closed
      obtain ⟨body, hbody, first⟩ := ih closed
      refine ⟨c :: body, by rw [List.take_succ_cons, hbody, List.cons_append], ?_⟩
      rw [List.cons_append, List.infix_cons_iff, not_or]
      refine ⟨fun starts => mark ?_, first⟩
      obtain ⟨hc, next⟩ := List.cons_prefix_cons.mp starts
      refine ⟨hc.symm, ?_⟩
      -- the second character of the mark is that of the text, or of the comment's own mark
      cases body with
      | nil => simp at next
      | cons b body =>
        obtain ⟨hb, -⟩ := List.cons_prefix_cons.mp next
        have head := congrArg List.head? hbody
        cases cs with
        | nil => simp at hbody
        | cons d ds =>
          rw [hb]
          cases hn : (commentTail (d :: ds)).2 with
          | zero => simp [hn] at hbody
          | succ n => simpa [hn] using head

lemma isTrivia_punctExtent (c : Char) (cs : List Char) :
    (punctExtent c cs).1.isTrivia = false := by
  obtain ⟨p, h⟩ | h | h := punctExtent_kind c cs <;> rw [h] <;> rfl

/-- How a lexeme begins that is no token. -/
lemma extent_trivia_cases {c : Char} (trivia : (extent c cs).1.isTrivia = true) :
    isBlank c = true ∧ extent c cs = (.blank, run isBlank cs) ∨
    c = '\n' ∧ extent c cs = (.newline, 0) ∨
    c = '\r' ∧ extent c cs = (.newline, if cs.head? = some '\n' then 1 else 0) ∨
    (∃ ds, c = '/' ∧ cs = '/' :: ds ∧
      extent c cs = (.lineComment, run (fun d => !isLineBreak d) ds + 1)) ∨
    ∃ ds, c = '/' ∧ cs = '*' :: ds ∧ (commentTail ds).1 = true ∧
      extent c cs = (.blockComment, (commentTail ds).2 + 1) := by
  by_cases line : c = '\n'
  · subst line
    exact .inr (.inl ⟨rfl, rfl⟩)
  by_cases carriage : c = '\r'
  · subst carriage
    exact .inr (.inr (.inl ⟨rfl, rfl⟩))
  by_cases slash : c = '/'
  · subst slash
    rw [extent_slash] at trivia ⊢
    split at trivia
    case isTrue comment =>
      obtain ⟨ds, rfl⟩ := List.head?_eq_some_iff.mp comment
      refine .inr (.inr (.inr (.inl ⟨ds, rfl, rfl, ?_⟩)))
      rw [if_pos comment, List.tail_cons, Nat.add_comm]
    case isFalse noLine =>
      rw [if_neg noLine]
      split at trivia
      case isTrue comment =>
        obtain ⟨ds, rfl⟩ := List.head?_eq_some_iff.mp comment
        rw [List.tail_cons] at trivia
        by_cases closed : (commentTail ds).1 = true
        · refine .inr (.inr (.inr (.inr ⟨ds, rfl, rfl, closed, ?_⟩)))
          rw [if_pos comment, List.tail_cons, if_pos closed, Nat.add_comm]
        · rw [if_neg closed] at trivia
          cases trivia
      case isFalse => simp [isTrivia_punctExtent] at trivia
  rw [extent_of_ne line carriage slash] at trivia ⊢
  split at trivia
  case isTrue blank => exact .inl ⟨blank, if_pos blank⟩
  case isFalse =>
    split at trivia
    · cases trivia
    split at trivia
    · cases trivia
    split at trivia
    · dsimp only at trivia
      split at trivia <;> cases trivia
    · simp [isTrivia_punctExtent] at trivia

/-- A lexeme that is no token may stand before what may stand between tokens. -/
lemma separated_extent {c : Char} (trivia : (extent c cs).1.isTrivia = true)
    (text : cs.drop (extent c cs).2 = gap ++ after) (rest : Separated after comment gap) :
    Separated after
      (Token.bringsComment ⟨(extent c cs).1, c :: cs.take (extent c cs).2⟩ || comment)
      (c :: cs.take (extent c cs).2 ++ gap) := by
  obtain ⟨blank, h⟩ | ⟨rfl, h⟩ | ⟨rfl, h⟩ | ⟨ds, rfl, rfl, h⟩ | ⟨ds, rfl, rfl, closed, h⟩ :=
    extent_trivia_cases trivia
  all_goals rw [h] at text ⊢
  · rw [take_run]
    exact separated_blanks (List.forall_mem_cons.mpr ⟨blank, fun _ => List.mem_takeWhile_imp⟩) rest
  · exact .lineBreak (.inl rfl) rest
  · by_cases feed : cs.head? = some '\n'
    · obtain ⟨ds, rfl⟩ := List.head?_eq_some_iff.mp feed
      exact .lineBreak (.inr rfl) (.lineBreak (.inl rfl) rest)
    · rw [if_neg feed]
      exact .lineBreak (.inr rfl) rest
  · rw [List.drop_succ_cons, drop_run] at text
    rw [List.take_succ_cons, take_run]
    refine .lineComment (fun d hd => ?_) (fun d hd => ?_) rest
    · simpa [isLineBreak] using List.mem_takeWhile_imp hd
    · have stops := List.head?_dropWhile_not (fun d => !isLineBreak d) ds
      rw [text, Option.mem_def.mp hd] at stops
      simpa [isLineBreak, or_iff_not_imp_left] using stops
  · obtain ⟨body, hbody, first⟩ := commentTail_closed closed
    rw [List.take_succ_cons, hbody]
    simpa [Token.bringsComment] using Separated.blockComment first rest

/-- Of what is no token, that brings a line break which has one in it. -/
lemma bringsNewline_extent {c : Char} (trivia : (extent c cs).1.isTrivia = true) :
    Token.bringsNewline ⟨(extent c cs).1, c :: cs.take (extent c cs).2⟩ =
      (c :: cs.take (extent c cs).2).any isLineBreak := by
  obtain ⟨blank, h⟩ | ⟨rfl, h⟩ | ⟨rfl, h⟩ | ⟨ds, rfl, rfl, h⟩ | ⟨ds, rfl, rfl, -, h⟩ :=
    extent_trivia_cases trivia
  all_goals rw [h]
  · have free (b : Char) (hb : isBlank b = true) : isLineBreak b = false := by
      rcases blank_cases hb with rfl | rfl | rfl | rfl <;> rfl
    have none : (c :: cs.takeWhile isBlank).any isLineBreak = false := by
      rw [List.any_cons, free c blank, Bool.false_or, List.any_eq_false]
      exact fun b hb => by simp [free b (List.mem_takeWhile_imp hb)]
    rw [take_run, none]
    rfl
  · rfl
  · rfl
  · have none : (ds.takeWhile fun d => !isLineBreak d).any isLineBreak = false := by
      rw [List.any_eq_false]
      exact fun b hb => by simpa using List.mem_takeWhile_imp hb
    have slash : isLineBreak '/' = false := by decide
    rw [List.take_succ_cons, take_run, List.any_cons, List.any_cons, slash, none]
    rfl
  · rfl

/-- Lexemes that are no tokens make a text that may stand between tokens, and tell the line breaks
and comments in it. -/
lemma separated_ofChars {ls ls' : List Lexeme} (h : ofChars cs = ls ++ ls')
    (trivia : ∀ l ∈ ls, l.kind.isTrivia = true) :
    Separated (ls'.flatMap chars) (ls.any Token.bringsComment) (ls.flatMap chars) ∧
      ls.any Token.bringsNewline = (ls.flatMap chars).any isLineBreak := by
  induction ls generalizing cs with
  | nil => exact ⟨.nil, rfl⟩
  | cons l ls ih =>
    cases cs with
    | nil => simp [ofChars_nil] at h
    | cons c cs =>
      obtain ⟨first, others⟩ := List.forall_mem_cons.mp trivia
      rw [ofChars_cons, List.cons_append] at h
      obtain ⟨rfl, later⟩ := List.cons.inj h
      have text := congrArg (List.flatMap chars) later
      rw [flatMap_chars_ofChars, List.flatMap_append] at text
      obtain ⟨separated, newline⟩ := ih later others
      constructor
      · exact separated_extent first text separated
      · rw [List.any_cons, List.flatMap_cons, List.any_append, newline, bringsNewline_extent first]

end Lexeme

namespace Token

variable {offset : Nat} {newline comment : Bool} {ls : List Lexeme} {ts : List Token}

lemma isTrivia_iff {l : Lexeme} : l.kind.isTrivia = true ↔ kindOf? l = .ok none := by
  obtain ⟨kind, chars⟩ := l
  cases kind with
  | number => cases hx : readNumber chars <;> simp [LexemeKind.isTrivia, kindOf?, hx, Except.map]
  | string => cases hx : readString chars <;> simp [LexemeKind.isTrivia, kindOf?, hx, Except.map]
  | _ => simp [LexemeKind.isTrivia, kindOf?]

/-- The first token, and what stands before it. -/
lemma ofLexemes_first (h : ofLexemes offset newline comment ls = .ok ts) :
    ∃ gap, (∀ l ∈ gap, l.kind.isTrivia = true) ∧
      let start := offset + totalSize gap
      let newline' := newline || gap.any bringsNewline
      let comment' := comment || gap.any bringsComment
      (ls = gap ∧ ts = [⟨.endOfInput, .point start, newline', comment'⟩] ∨
        ∃ l ls' kind ts', ls = gap ++ l :: ls' ∧ kindOf? l = .ok (some kind) ∧
          ts = ⟨kind, ⟨start, start + l.size⟩, newline', comment'⟩ :: ts' ∧
          ofLexemes (start + l.size) false false ls' = .ok ts') := by
  induction ls generalizing offset newline comment ts with
  | nil =>
    cases h
    refine ⟨[], by simp, .inl ⟨rfl, ?_⟩⟩
    simp [totalSize_nil]
  | cons l ls ih =>
    rcases ofLexemes_cons_cases h with ⟨kind, rest, hk, hrest, rfl⟩ | ⟨hk, hrest⟩
    · refine ⟨[], by simp, .inr ⟨l, ls, kind, rest, rfl, hk, ?_, ?_⟩⟩
      · simp [totalSize_nil]
      · simpa [totalSize_nil] using hrest
    · obtain ⟨gap, trivia, first⟩ := ih hrest
      refine ⟨l :: gap, List.forall_mem_cons.mpr ⟨isTrivia_iff.mpr hk, trivia⟩, ?_⟩
      simp only [List.any_cons, totalSize_cons, ← Nat.add_assoc, ← Bool.or_assoc]
      rcases first with ⟨rfl, hts⟩ | ⟨l', ls', kind, ts', rfl, hk', hts, hrest'⟩
      · exact .inl ⟨rfl, hts⟩
      · exact .inr ⟨l', ls', kind, ts', rfl, hk', hts, hrest'⟩

/-- The first token of a text, and the text before it. -/
lemma ofChars_first {cs : List Char}
    (h : ofLexemes offset false false (Lexeme.ofChars cs) = .ok ts) :
    ∃ gap comment,
      let start := offset + byteLength gap
      let newline := gap.any Lexeme.isLineBreak
      cs = gap ∧ Separated [] comment gap ∧
          ts = [⟨.endOfInput, .point start, newline, comment⟩] ∨
        ∃ chars rest kind ts', cs = gap ++ (chars ++ rest) ∧
          Separated (chars ++ rest) comment gap ∧
          ts = ⟨kind, ⟨start, start + byteLength chars⟩, newline, comment⟩ :: ts' ∧
          ofLexemes (start + byteLength chars) false false (Lexeme.ofChars rest) = .ok ts' := by
  obtain ⟨gap, trivia, first⟩ := ofLexemes_first h
  refine ⟨gap.flatMap Lexeme.chars, gap.any bringsComment, ?_⟩
  simp only [Bool.false_or] at first
  rcases first with ⟨hls, rfl⟩ | ⟨l, ls, kind, ts', hls, -, rfl, hts'⟩
  · left
    rw [← List.append_nil gap] at hls
    obtain ⟨separated, newline⟩ := Lexeme.separated_ofChars hls trivia
    have text := congrArg (List.flatMap Lexeme.chars) hls
    rw [Lexeme.flatMap_chars_ofChars, List.append_nil] at text
    exact ⟨text, separated, by rw [← newline, totalSize]⟩
  · right
    obtain ⟨separated, newline⟩ := Lexeme.separated_ofChars hls trivia
    have text := congrArg (List.flatMap Lexeme.chars) hls
    rw [Lexeme.flatMap_chars_ofChars, List.flatMap_append, List.flatMap_cons] at text
    rw [List.flatMap_cons] at separated
    rw [List.append_cons] at hls
    refine ⟨l.chars, ls.flatMap Lexeme.chars, kind, ts', text, separated, ?_, ?_⟩
    · rw [← newline, totalSize, Lexeme.size]
    · rw [Lexeme.ofChars_of_append hls]
      exact hts'

/-- Where the last of some tokens ends; without tokens, at `lo`. -/
def stopAfter (lo : Nat) (ts : List Token) : Nat := (ts.getLast?.map (·.span.stop)).getD lo

lemma stopAfter_cons (lo : Nat) (t : Token) (ts : List Token) :
    stopAfter lo (t :: ts) = stopAfter t.span.stop ts := by
  rw [stopAfter, stopAfter, List.getLast?_cons]
  cases ts.getLast? <;> rfl

/-- In the text `before ++ gap ++ rest`, what stands between the offset `start` and a token is
`gap`, and the marks of the token tell what is in it. -/
structure GapBefore (text before gap rest : List Char) (start : Nat) (t : Token) : Prop where
  text_eq : text = before ++ (gap ++ rest)
  start_eq : start = byteLength before
  stop_eq : t.span.start = byteLength (before ++ gap)
  separated : Separated rest t.commentBefore gap
  newline : t.newlineBefore = gap.any Lexeme.isLineBreak

namespace GapBefore

variable {text before gap rest : List Char} {start : Nat} {t : Token}

lemma slice_eq (h : GapBefore text before gap rest start t) :
    sliceBytes text start t.span.start = gap := by
  have inside : before <+: text := ⟨gap ++ rest, h.text_eq.symm⟩
  have inside' : before ++ gap <+: text := ⟨rest, by rw [h.text_eq, List.append_assoc]⟩
  rw [h.start_eq, h.stop_eq, sliceBytes_of_prefix inside inside', List.drop_left]

lemma drop_eq (h : GapBefore text before gap rest start t) :
    dropBytes t.span.start text = rest := by
  rw [h.stop_eq, h.text_eq, ← List.append_assoc, dropBytes_append]

lemma newline_iff (h : GapBefore text before gap rest start t) :
    t.newlineBefore = true ↔ '\n' ∈ gap ∨ '\r' ∈ gap := by
  simp [h.newline, Lexeme.isLineBreak, and_or_left, exists_or]

end GapBefore

lemma exists_gapBefore {d cs : List Char} {us vs : List Token} {t : Token}
    (h : ofLexemes (byteLength d) false false (Lexeme.ofChars cs) = .ok (us ++ t :: vs)) :
    ∃ before gap rest, GapBefore (d ++ cs) before gap rest (stopAfter (byteLength d) us) t := by
  induction us generalizing d cs with
  | nil =>
    obtain ⟨gap, comment, ⟨rfl, separated, hts⟩ | ⟨chars, rest, kind, ts, rfl, separated, hts, -⟩⟩ :=
      ofChars_first h
    · obtain ⟨rfl, -⟩ := List.cons.inj hts
      exact ⟨d, _, [], by simp, rfl, (byteLength_append _ _).symm, separated, rfl⟩
    · obtain ⟨rfl, -⟩ := List.cons.inj hts
      exact ⟨d, gap, _, rfl, rfl, (byteLength_append _ _).symm, separated, rfl⟩
  | cons u us ih =>
    obtain ⟨gap, comment, ⟨-, -, hts⟩ | ⟨chars, rest, kind, ts, rfl, -, hts, hrest⟩⟩ :=
      ofChars_first h
    · simp at hts
    · obtain ⟨rfl, rfl⟩ := List.cons.inj hts
      rw [← byteLength_append, ← byteLength_append] at hrest
      obtain ⟨before, gap', rest', found⟩ := ih hrest
      have text : d ++ gap ++ chars ++ rest = d ++ (gap ++ (chars ++ rest)) := by simp
      rw [text, byteLength_append, byteLength_append] at found
      exact ⟨before, gap', rest', by rwa [stopAfter_cons]⟩

variable {text : String}

/-- The tokens of a text of which some data are known. -/
lemma exists_ofText {α : Type} {f : Token → α} {as : List α}
    (h : (ofText text).toOption.map (·.map f) = some as) :
    ∃ ts, ofText text = .ok ts ∧ ts.map f = as := by
  cases lexed : ofText text with
  | error e => simp [lexed, Except.toOption] at h
  | ok ts =>
    rw [lexed] at h
    exact ⟨ts, rfl, Option.some.inj h⟩

/-- The end of input stands last, at the end of the text. -/
lemma ofText_eq_append (h : ofText text = .ok ts) :
    ∃ us newline comment,
      ts = us ++ [⟨.endOfInput, .point text.utf8ByteSize, newline, comment⟩] ∧
        ∀ u ∈ us, u.kind.isEndOfInput = false := by
  rw [ofText, ← List.append_nil (Lexeme.ofText text)] at h
  obtain ⟨us, last, newline, comment, rfl, inner, hlast, -⟩ := ofLexemes_append h
  cases hlast
  refine ⟨us, newline, comment, ?_, inner⟩
  rw [Lexeme.ofText, totalSize_ofChars, byteLength_toList, Nat.zero_add]

lemma Ordered.le_start {lo : Nat} (h : Ordered lo ts) {t : Token} (ht : t ∈ ts) :
    lo ≤ t.span.start := by
  induction h with
  | last ends after point =>
    obtain rfl := List.mem_singleton.mp ht
    exact after
  | token more after nonempty rest ih =>
    rcases List.mem_cons.mp ht with rfl | ht
    · exact after
    · have := ih ht
      omega

lemma Ordered.pairwise {lo : Nat} (h : Ordered lo ts) :
    ts.Pairwise fun t u => t.span.stop ≤ u.span.start := by
  induction h with
  | last => exact List.pairwise_singleton _ _
  | token more after nonempty rest ih => exact List.pairwise_cons.mpr ⟨fun _ => rest.le_start, ih⟩

lemma Ordered.nonempty {lo : Nat} (h : Ordered lo ts) {t : Token} (ht : t ∈ ts)
    (more : t.kind.isEndOfInput = false) : t.span.start < t.span.stop := by
  induction h with
  | last ends after point =>
    obtain rfl := List.mem_singleton.mp ht
    rw [ends] at more
    cases more
  | token more after nonempty rest ih =>
    rcases List.mem_cons.mp ht with rfl | ht
    · exact nonempty
    · exact ih ht

/-- The tokens of a text follow one another up to the end of input, which stands alone at the end
of the text, and what is before a token, back to the one before, is nothing but blanks, line breaks
and complete comments, of which the marks of the token tell. -/
theorem tokens_account (h : ofText text = .ok ts) :
    (∃ us last, ts = us ++ [last] ∧ last.kind = .endOfInput ∧
      last.span = .point text.utf8ByteSize ∧
      ∀ u ∈ us, u.kind.isEndOfInput = false ∧ u.span.start < u.span.stop) ∧
    (∀ t ∈ ts, t.span.LiesIn text) ∧
    (ts.Pairwise fun t u => t.span.stop ≤ u.span.start) ∧
    ∀ us t vs, ts = us ++ t :: vs →
      let gap := sliceBytes text.toList (stopAfter 0 us) t.span.start
      Separated (dropBytes t.span.start text.toList) t.commentBefore gap ∧
        (t.newlineBefore = true ↔ '\n' ∈ gap ∨ '\r' ∈ gap) := by
  have ordered := ordered_ofText h
  refine ⟨?_, fun t ht => liesIn_ofText h ht, ordered.pairwise, ?_⟩
  · obtain ⟨us, newline, comment, rfl, inner⟩ := ofText_eq_append h
    refine ⟨us, _, rfl, rfl, rfl, fun u hu => ⟨inner u hu, ?_⟩⟩
    exact ordered.nonempty (List.mem_append_left _ hu) (inner u hu)
  · rintro us t vs rfl
    obtain ⟨before, gap, rest, found⟩ := exists_gapBefore (d := []) h
    rw [List.nil_append] at found
    have slice : sliceBytes text.toList (stopAfter 0 us) t.span.start = gap := found.slice_eq
    rw [slice, found.drop_eq]
    exact ⟨found.separated, found.newline_iff⟩

/-- A name behind a comment that holds a line break, and a comment at the end. -/
theorem tokens_account_comment :
    ∃ t u v, Token.ofText "a /* \n */b // c" = .ok [t, u, v] ∧
      t.span = ⟨0, 1⟩ ∧ u.span = ⟨9, 10⟩ ∧ v.kind = .endOfInput ∧ v.span = ⟨15, 15⟩ ∧
      Separated "b // c".toList true " /* \n */".toList ∧ u.commentBefore = true ∧
      u.newlineBefore = true ∧
      Separated [] true " // c".toList ∧ v.commentBefore = true ∧ v.newlineBefore = false := by
  let text := "a /* \n */b // c"
  have marks : (Token.ofText text).toOption.map
      (·.map fun t => (t.span, t.newlineBefore, t.commentBefore)) =
        some [(⟨0, 1⟩, false, false), (⟨9, 10⟩, true, true), (⟨15, 15⟩, false, true)] := by
    decide +kernel
  obtain ⟨ts, lexed, marks⟩ := exists_ofText marks
  obtain ⟨t, us, rfl, ht, marks⟩ := List.map_eq_cons_iff.mp marks
  obtain ⟨u, us, rfl, hu, marks⟩ := List.map_eq_cons_iff.mp marks
  obtain ⟨v, us, rfl, hv, marks⟩ := List.map_eq_cons_iff.mp marks
  obtain rfl := List.map_eq_nil_iff.mp marks
  simp only [Prod.mk.injEq] at ht hu hv
  obtain ⟨⟨us, last, split, ends, -⟩, -, -, gaps⟩ := tokens_account lexed
  have split : [t, u] ++ [v] = us ++ [last] := split
  obtain rfl : v = last := (List.cons.inj (List.append_inj' split rfl).2).1
  have second := gaps [t] u [v] rfl
  have third := gaps [t, u] v [] rfl
  simp only [stopAfter, List.getLast?_singleton, List.getLast?_cons_cons, Option.map_some,
    Option.getD_some, ht, hu, hv] at second third
  have cut : sliceBytes text.toList 1 9 = " /* \n */".toList := by decide +kernel
  have cut' : sliceBytes text.toList 10 15 = " // c".toList := by decide +kernel
  have rest : dropBytes 9 text.toList = "b // c".toList := by decide +kernel
  have rest' : dropBytes 15 text.toList = [] := by decide +kernel
  rw [cut, rest] at second
  rw [cut', rest'] at third
  exact ⟨t, u, v, lexed, ht.1, hu.1, ends, hv.1, second.1, hu.2.2, hu.2.1, third.1, hv.2.2,
    hv.2.1⟩

end Token

end ScriptDebugger
