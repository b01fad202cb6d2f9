import ScriptDebugger.Proofs.Syntax.RespannedGrammar
import ScriptDebugger.Proofs.Syntax.Shape
import ScriptDebugger.Proofs.Token.Inserted

/-!
# Programs with a blank put in

A blank that is put in at the start or the end of a token changes no more of a program
than the offsets behind it (`parse_insertAt`).
-/

namespace ScriptDebugger

/-- The span once a character of one byte has been put in at `p`, before what begins there and
behind what ends there. -/
def Span.makeRoom (p : Nat) (s : Span) : Span :=
  ⟨if p ≤ s.start then s.start + 1 else s.start, if p < s.stop then s.stop + 1 else s.stop⟩

/-- The change of offsets that makes room for one byte at `p`. -/
def Displacement.oneByte (p : Nat) : Displacement where
  start n := if p ≤ n then n + 1 else n
  stop n := if p < n then n + 1 else n
  start_mono a b h := by dsimp only; split <;> split <;> omega
  stop_mono a b h := by dsimp only; split <;> split <;> omega

lemma Displacement.span_oneByte (p : Nat) : (oneByte p).span = Span.makeRoom p := rfl

namespace Token

variable {ts : List Token} {p : Nat}

/-- No token goes across a place where a token begins or ends. -/
lemma apart_of_place (ordered : Ordered 0 ts)
    (place : ∃ t ∈ ts, p = t.span.start ∨ p = t.span.stop) {u : Token} (hu : u ∈ ts) :
    u.span.stop ≤ p ∨ p ≤ u.span.start := by
  obtain ⟨t, ht, place⟩ := place
  have self := ordered.ordered_of_mem ht
  obtain ⟨us, vs, rfl⟩ := List.append_of_mem ht
  obtain ⟨-, later, before⟩ := List.pairwise_append.mp ordered.pairwise
  rcases List.mem_append.mp hu with hu | hu
  · have := before u hu t List.mem_cons_self
    omega
  rcases List.mem_cons.mp hu with rfl | hu
  · omega
  · have := (List.pairwise_cons.mp later).1 u hu
    omega

lemma twins_makeRoom (ordered : Ordered 0 ts)
    (place : ∃ t ∈ ts, p = t.span.start ∨ p = t.span.stop) :
    List.Forall₂ (Twin (.oneByte p)) ts (ts.map (makeRoom p)) := by
  rw [List.forall₂_map_right_iff, List.forall₂_same]
  intro t ht
  have apart := apart_of_place ordered place ht
  constructor
  · rw [makeRoom]
    split <;> rfl
  · rw [makeRoom]
    split <;> rfl
  · intro more
    have nonempty := ordered.nonempty ht more
    rw [Displacement.span_oneByte, span_makeRoom, Span.makeRoom]
    split
    case isTrue behind =>
      have later : p < t.span.stop := by omega
      rw [if_pos later, Span.move, Nat.add_comm, Nat.add_comm t.span.stop]
    case isFalse before =>
      have earlier : ¬ p < t.span.stop := by omega
      rw [if_neg earlier]

end Token

namespace Tree

/-- The tree with the image of each span, which depends on the node, and with places looked up
anew. -/
def mapSpans (g : NodeId → Span → Span) (locate : Span → Option SourceLocation) (t : Tree) : Tree :=
  { t with nodes := t.nodes.mapIdx fun id n => n.mapSpan (g id) locate }

/-- The tree once a character of one byte has been put into the text at `p`. The root spans the
whole text. -/
def makeRoom (p : Nat) (table? : Option LineTable) (t : Tree) : Tree :=
  t.mapSpans
    (fun id s => if t.root = some id then ⟨s.start, s.stop + 1⟩ else s.makeRoom p)
    fun s => table?.map (·.location s)

variable {g : NodeId → Span → Span} {locate locate' : Span → Option SourceLocation}

lemma getElem?_mapSpans (t : Tree) (id : Nat) :
    (t.mapSpans g locate).nodes[id]? = t.nodes[id]?.map (Node.mapSpan (g id) locate) := by
  rw [mapSpans, Array.getElem?_mapIdx]

lemma children_mapSpans (t : Tree) (id : NodeId) :
    (t.mapSpans g locate).children id = t.children id := by
  simp only [children, kind, getElem?_mapSpans]
  cases t.nodes[id]? <;> rfl

/-- Links go by the kinds of nodes alone. -/
lemma link_mapSpans (t : Tree) (root : NodeId) :
    (t.mapSpans g locate).link root = (t.link root).mapSpans g locate := by
  have nodes : ((t.mapSpans g locate).link root).nodes =
      ((t.link root).mapSpans g locate).nodes := by
    apply Array.ext_getElem?
    intro i
    have among : (t.mapSpans g locate).parentAmong? i (t.mapSpans g locate).size =
        t.parentAmong? i t.size := by
      simp only [parentAmong?, children_mapSpans]
      rw [size, mapSpans, Array.size_mapIdx, size]
    rw [getElem?_link, getElem?_mapSpans, getElem?_mapSpans, getElem?_link, among,
      Option.map_map, Option.map_map]
    rfl
  simp only [link, mapSpans] at nodes ⊢
  rw [nodes]

lemma number_program (locate : Span → Option SourceLocation) (s : Span) (body : List Phrase) :
    Phrase.number locate #[] ⟨s, .program body⟩ =
      (Phrase.numberAll locate #[] body).1.push
        (.fresh (.program (Phrase.numberAll locate #[] body).2) s (locate s)) :=
  Phrase.number_eq #[] ⟨s, .program body⟩

/-- The nodes of a program of displaced statements. -/
lemma number_displaced (m : Displacement) (whole : Span → Span) (s : Span)
    (body : List Phrase) :
    Phrase.number locate' #[] ⟨whole s, .program (body.map m.phrase)⟩ =
      (Phrase.number locate #[] ⟨s, .program body⟩).mapIdx fun id n =>
        n.mapSpan
          (fun t => if some ((Phrase.number locate #[] ⟨s, .program body⟩).size - 1) = some id then
              whole t
            else m.span t) locate' := by
  have moved : Phrase.numberAll locate' ((#[] : Array Node).map (Node.mapSpan m.span locate'))
      (body.map m.phrase) = ((Phrase.numberAll locate #[] body).1.map (Node.mapSpan m.span locate'),
        (Phrase.numberAll locate #[] body).2) :=
    Phrase.numberAll_mapSpans (fun c _ => Phrase.number_mapSpans c) #[]
  rw [Array.map_empty] at moved
  rw [number_program, number_program, moved, Array.size_push, Nat.add_sub_cancel,
    Array.mapIdx_push]
  congr 1
  · apply Array.ext_getElem?
    intro i
    rw [Array.getElem?_map, Array.getElem?_mapIdx]
    by_cases hi : i < (Phrase.numberAll locate #[] body).1.size
    · rw [Array.getElem?_eq_getElem hi]
      simp only [Option.map_some, Option.some.injEq, if_neg (Nat.ne_of_gt hi)]
    · rw [Array.getElem?_eq_none (Nat.le_of_not_lt hi)]
      rfl
  · simp only [Node.mapSpan, if_true]
    rfl

/-- The tree of a program of displaced statements. -/
lemma ofPhrase_displaced (m : Displacement) (whole : Span → Span) (table? table?' : Option LineTable)
    (sourceType : SourceType) (s : Span) (body : List Phrase) :
    ofPhrase table?' sourceType ⟨whole s, .program (body.map m.phrase)⟩ =
      (ofPhrase table? sourceType ⟨s, .program body⟩).mapSpans
        (fun id t => if (ofPhrase table? sourceType ⟨s, .program body⟩).root = some id then whole t
          else m.span t)
        fun s => table?'.map (·.location s) := by
  rw [ofPhrase, ofPhrase, number_displaced m whole s body, Array.size_mapIdx, ← link_mapSpans]
  rfl

/-- One blank at the start or the end of a token leaves the tokens of a text and the tree of a
program as they are, but for the offsets behind it, and a text that is no program is none for the
same reason as before. -/
theorem parse_insertAt {text : String} {ts : List Token} {p : Nat} {w : Char}
    (lexed : Token.ofText text = .ok ts)
    (place : ∃ t ∈ ts, p = t.span.start ∨ p = t.span.stop) (blank : w = ' ' ∨ w = '\t') :
    Token.ofText (insertAt text p w) = .ok (ts.map (Token.makeRoom p)) ∧
    ∀ options : ParseOptions,
      let table? := if options.locations then some (.ofText (insertAt text p w)) else none
      Grammar.Alike (fun t t' => t' = t.makeRoom p table?) (Tree.parse text options)
        (Tree.parse (insertAt text p w) options) := by
  have blank : Lexeme.isBlank w = true := by rcases blank with rfl | rfl <;> rfl
  have moved := Token.ofText_insertAt lexed place blank
  refine ⟨moved, fun options => ?_⟩
  have twins := Token.twins_makeRoom (Token.ordered_ofText lexed) place
  have boundary : Boundary text.toList p := by
    obtain ⟨t, ht, rfl | rfl⟩ := place
    · exact (Token.liesIn_ofText lexed ht).start_boundary
    · exact (Token.liesIn_ofText lexed ht).stop_boundary
  have size := Token.utf8ByteSize_insertAt boundary blank
  have programs := Grammar.program_alike text.utf8ByteSize (text.utf8ByteSize + 1) twins rfl
  simp only [Tree.parse_eq, Phrase.parse, lexed, moved, size]
  refine programs.map ?_
  rintro _ _ ⟨body, rfl, rfl⟩
  exact ofPhrase_displaced (.oneByte p) (fun s => ⟨s.start, s.stop + 1⟩) _ _ options.sourceType
    ⟨0, text.utf8ByteSize⟩ body

/-- A tab behind the name on the left of an assignment. -/
theorem parse_insertAt_tab :
    ∃ ts t, Token.ofText "x=y//z" = .ok ts ∧
      Token.ofText "x\t=y//z" = .ok (ts.map (Token.makeRoom 1)) ∧
      (ts.map (Token.makeRoom 1)).map (·.span) = [⟨0, 1⟩, ⟨2, 3⟩, ⟨3, 4⟩, ⟨7, 7⟩] ∧
      Tree.parse "x=y//z" = .ok t ∧
      Tree.parse "x\t=y//z" = .ok (t.makeRoom 1 (some (.ofText "x\t=y//z"))) ∧
      t.size = 5 := by
  let text := "x=y//z"
  have spans : (Token.ofText text).toOption.map (·.map (·.span)) =
      some [⟨0, 1⟩, ⟨1, 2⟩, ⟨2, 3⟩, ⟨6, 6⟩] := by decide +kernel
  obtain ⟨ts, lexed, spans⟩ := Token.exists_ofText spans
  have place : ∃ t ∈ ts, 1 = t.span.start ∨ 1 = t.span.stop := by
    obtain ⟨t, us, rfl, ht, -⟩ := List.map_eq_cons_iff.mp spans
    exact ⟨t, List.mem_cons_self, .inr (by rw [ht])⟩
  obtain ⟨moved, trees⟩ := parse_insertAt (w := '\t') lexed place (.inr rfl)
  have inserted : insertAt text 1 '\t' = "x\t=y//z" := by decide +kernel
  rw [inserted] at moved trees
  let t := (Tree.parse text).toOption.getD default
  have parsed : Tree.parse text = .ok t := Tree.parse_of_isSome (by decide +kernel)
  have alike := trees {}
  rw [parsed] at alike
  obtain ⟨t', parsed', rfl⟩ := alike.exists_ok
  refine ⟨ts, t, lexed, moved, ?_, parsed, parsed', by decide +kernel⟩
  have images : (ts.map (Token.makeRoom 1)).map (·.span) =
      (ts.map (·.span)).map fun s => if 1 ≤ s.start then s.move (1 + ·) else s := by
    simp only [List.map_map, Function.comp_def, Token.span_makeRoom]
  rw [images, spans]
  rfl

end Tree

end ScriptDebugger
