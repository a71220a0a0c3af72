import ActorGlue.Proofs.Token.Written

/-!
# Tokens and the gaps between them

The tokens of a text stand one behind the other, and what is left of the text are gaps: white space
and comments. A gap is read off the text alone, and it can be read in one way only, so a comment
that begins outside of all tokens ends before the next one.
-/

namespace ActorGlue

variable {rest text : List Char} {depth offset size skipped : Nat} {tokens : List Token}
  {token : Token} {what : String}

section Definitions

/-- The text goes on inside of a block comment, and the rest follows the mark that closes it. -/
inductive Enclosed : List Char → List Char → Prop where
  | close (rest : List Char) : Enclosed ('*' :: '/' :: rest) rest
  | nested {text middle rest : List Char} (inner : Enclosed text middle)
      (outer : Enclosed middle rest) : Enclosed ('/' :: '*' :: text) rest
  | plain {c : Char} {text rest : List Char} (opens : ¬['/', '*'] <+: c :: text)
      (closes : ¬['*', '/'] <+: c :: text) (more : Enclosed text rest) :
      Enclosed (c :: text) rest

/-- The text begins with a comment, and the rest follows it. A line comment runs to the end of its
line or of the text. -/
inductive Comment : List Char → List Char → Prop where
  | line {body rest : List Char} (inside : ∀ c ∈ body, c ≠ '\n')
      (ends : ∀ c ∈ rest.head?, c = '\n') : Comment ('/' :: '/' :: (body ++ rest)) rest
  | block {text rest : List Char} (inside : Enclosed text rest) :
      Comment ('/' :: '*' :: text) rest

/-- A comment of the text, from its first character to behind its last one. -/
def CommentAt (text : List Char) (start stop : Nat) : Prop :=
  stop ≤ text.length ∧ Comment (text.drop start) (text.drop stop)

/-- A character of white space. -/
def BlankAt (text : List Char) (start stop : Nat) : Prop :=
  stop = start + 1 ∧ ∃ c, text[start]? = some c ∧ Text.isBlank c

/-- A character of white space or a comment. -/
def SkipsAt (text : List Char) (start stop : Nat) : Prop :=
  BlankAt text start stop ∨ CommentAt text start stop

/-- White space and comments, any number of them one behind the other. -/
def Gap (text : List Char) : Nat → Nat → Prop :=
  Relation.ReflTransGen (SkipsAt text)

/-- Where the last of some tokens ends; the beginning of the text if there is none. -/
def Token.lastStop (tokens : List Token) : Nat :=
  (tokens.getLast?.map (·.stop)).getD 0

/-- Where the first of some tokens begins; the end of the text if there is none. -/
def Token.firstStart (text : List Char) (tokens : List Token) : Nat :=
  (tokens.head?.map (·.start)).getD text.length

end Definitions

namespace Scan

section Comments

/-! ## Comments are what the scanner passes over -/

/-- The text goes on inside of some comments, one more than the given number, and the rest follows
the mark that closes the outermost one. -/
def EnclosedBy : Nat → List Char → List Char → Prop
  | 0, text, rest => Enclosed text rest
  | depth + 1, text, rest => ∃ middle, Enclosed text middle ∧ EnclosedBy depth middle rest

/-- Only the innermost comment depends on how the text begins. -/
theorem EnclosedBy.of_inner {other : List Char}
    (inner : ∀ middle, Enclosed text middle → Enclosed other middle)
    (h : EnclosedBy depth text rest) : EnclosedBy depth other rest := by
  cases depth with
  | zero => exact inner rest h
  | succ depth =>
    obtain ⟨middle, enclosed, outer⟩ := h
    exact ⟨middle, inner middle enclosed, outer⟩

/-- What the scanner passes over inside of comments closes all of them. -/
theorem enclosedBy_of_commentWidth? {width : Nat} (h : commentWidth? depth text = some width) :
    EnclosedBy depth text (text.drop width) := by
  fun_induction commentWidth? depth text generalizing width with
  | case1 depth text ih =>
    obtain ⟨more, found, rfl⟩ := Option.map_eq_some_iff.mp h
    obtain ⟨middle, inner, outer⟩ := ih found
    exact outer.of_inner fun _ => .nested inner
  | case2 text =>
    cases h
    exact .close text
  | case3 depth text ih =>
    obtain ⟨more, found, rfl⟩ := Option.map_eq_some_iff.mp h
    exact ⟨text, .close text, ih found⟩
  | case4 depth c text opens closes closes' ih =>
    obtain ⟨more, found, rfl⟩ := Option.map_eq_some_iff.mp h
    apply (ih found).of_inner
    intro middle
    apply Enclosed.plain
    · rintro ⟨tail, same⟩
      obtain ⟨rfl, rfl⟩ := List.cons.inj same
      exact opens tail rfl rfl
    · rintro ⟨tail, same⟩
      obtain ⟨rfl, rfl⟩ := List.cons.inj same
      cases depth with
      | zero => exact closes tail rfl rfl rfl
      | succ depth => exact closes' depth tail rfl rfl rfl
  | case5 => cases h

/-- The scanner passes over the text up to the mark that closes a comment, and no further. -/
theorem commentWidth?_of_enclosed (h : Enclosed text rest) :
    ∃ width, commentWidth? 0 text = some width ∧ text.drop width = rest ∧
      ∀ depth, commentWidth? (depth + 1) text = (commentWidth? depth rest).map (· + width) := by
  induction h with
  | close rest => exact ⟨2, rfl, rfl, fun depth => rfl⟩
  | @nested text middle rest inner outer innerIh outerIh =>
    obtain ⟨first, -, rfl, deeper⟩ := innerIh
    obtain ⟨second, found, rfl, deeper'⟩ := outerIh
    refine ⟨second + first + 2, ?_, ?_, fun depth => ?_⟩
    · rw [commentWidth?, deeper, found]
      rfl
    · rw [List.drop_succ_cons, List.drop_succ_cons, List.drop_drop, Nat.add_comm]
    · rw [commentWidth?, deeper, deeper', Option.map_map, Option.map_map]
      congr 1
      funext width
      simp only [Function.comp_apply]
      omega
  | @plain c text rest opens closes more ih =>
    obtain ⟨width, found, rfl, deeper⟩ := ih
    have step (depth : Nat) :
        commentWidth? depth (c :: text) = (commentWidth? depth text).map (· + 1) := by
      apply commentWidth?.eq_4
      · rintro tail rfl rfl
        exact opens ⟨tail, rfl⟩
      · rintro tail - rfl rfl
        exact closes ⟨tail, rfl⟩
      · rintro _ tail - rfl rfl
        exact closes ⟨tail, rfl⟩
    refine ⟨width + 1, ?_, rfl, fun depth => ?_⟩
    · rw [step, found]
      rfl
    · rw [step, deeper, Option.map_map]
      rfl

end Comments

end Scan

section Gaps

/-! ## Gaps are read in one way -/

variable {text : List Char} {start stop : Nat}

/-- A comment is a gap in front of the rest. -/
theorem Comment.isCut (comment : Comment text rest) :
    ∃ gap, text = gap ++ rest ∧ Scan.Piece.IsCut ⟨none, gap⟩ rest := by
  cases comment with
  | @line body _ inside ends =>
    exact ⟨'/' :: '/' :: body, rfl, Scan.isCut_gap_iff.mpr (.inr (.inl ⟨body, rfl, inside, ends⟩))⟩
  | @block text _ inside =>
    obtain ⟨width, found, rfl, -⟩ := Scan.commentWidth?_of_enclosed inside
    refine ⟨'/' :: '*' :: text.take width, by simp, Scan.isCut_gap_iff.mpr (.inr (.inr ⟨_, rfl, ?_⟩))⟩
    rw [List.take_append_drop, List.length_take_of_le (Scan.commentWidth?_closing _ _ _ found).2.1, found]

theorem Comment.length_lt (comment : Comment text rest) : rest.length < text.length := by
  obtain ⟨gap, rfl, c, more, same, -⟩ := comment.isCut
  obtain rfl : gap = c :: more := same
  simp only [List.length_append, List.length_cons]
  omega

theorem SkipsAt.bounds (skips : SkipsAt text start stop) : start < stop ∧ stop ≤ text.length := by
  rcases skips with ⟨rfl, c, found, -⟩ | ⟨le, comment⟩
  · obtain ⟨fits, -⟩ := List.getElem?_eq_some_iff.mp found
    omega
  · have shorter := comment.length_lt
    simp only [List.length_drop] at shorter
    omega

/-- Where a blank or a comment stands, the scanner cuts off a gap. -/
theorem SkipsAt.cut (skips : SkipsAt text start stop) :
    ∃ c body more, text.drop start = c :: body ∧ Scan.cut c body = .ok ⟨none, more⟩ ∧
      body.drop more = text.drop stop := by
  obtain ⟨gap, same, isCut⟩ : ∃ gap, text.drop start = gap ++ text.drop stop ∧
      Scan.Piece.IsCut ⟨none, gap⟩ (text.drop stop) := by
    rcases skips with ⟨rfl, c, found, blank⟩ | ⟨-, comment⟩
    · obtain ⟨fits, rfl⟩ := List.getElem?_eq_some_iff.mp found
      exact ⟨_, List.drop_eq_getElem_cons fits, Scan.isCut_gap_iff.mpr (.inl ⟨_, blank, rfl⟩)⟩
    · exact comment.isCut
  obtain ⟨c, more, rfl, found⟩ := isCut
  exact ⟨c, more ++ text.drop stop, more.length, same, found, List.drop_left⟩

theorem skipsAt_rightUnique (text : List Char) : Relator.RightUnique (SkipsAt text) := by
  intro start stop other first second
  obtain ⟨c, body, more, same, found, rest⟩ := first.cut
  obtain ⟨c', body', more', same', found', rest'⟩ := second.cut
  rw [same] at same'
  cases same'
  rw [found] at found'
  cases found'
  have lengths := congrArg List.length (rest.symm.trans rest')
  simp only [List.length_drop] at lengths
  have := first.bounds
  have := second.bounds
  omega

theorem Gap.le (gap : Gap text start stop) : start ≤ stop := by
  induction gap with
  | refl => exact le_refl start
  | tail _ skips ih => exact ih.trans skips.bounds.1.le

/-- A gap that nothing prolongs is as long as any gap from the same place. -/
theorem Gap.le_of_full {other : Nat} (gap : Gap text start stop)
    (full : ∀ next, ¬SkipsAt text stop next) (prefixed : Gap text start other) :
    other ≤ stop := by
  rcases gap.total_of_right_unique (skipsAt_rightUnique text) prefixed with longer | shorter
  · rw [Relation.reflTransGen_iff_eq full] at longer
    exact longer.le
  · exact Gap.le shorter

end Gaps

section Tokens

/-! ## Tokens with gaps around them -/

variable {text : List Char}
variable {before after : List Token}

/-- Tokens with gaps around them: one in front of each token, and one behind the last of them. -/
def Tiled (text : List Char) : Nat → List Token → Prop
  | start, [] => Gap text start text.length
  | start, token :: rest => Gap text start token.start ∧ Tiled text token.stop rest

theorem Tiled.widen {start stop : Nat} (skips : SkipsAt text start stop)
    (tiled : Tiled text stop tokens) : Tiled text start tokens := by
  cases tokens with
  | nil => exact Relation.ReflTransGen.head skips tiled
  | cons token rest => exact ⟨Relation.ReflTransGen.head skips tiled.1, tiled.2⟩

/-- A gap that is cut off a text skips the characters it has. -/
theorem skipsAt_of_isCut {gap before ahead : List Char}
    (isCut : Scan.Piece.IsCut ⟨none, gap⟩ ahead) :
    SkipsAt (before ++ (gap ++ ahead)) before.length (before.length + gap.length) := by
  have comment (comment : Comment (gap ++ ahead) ahead) :
      CommentAt (before ++ (gap ++ ahead)) before.length (before.length + gap.length) := by
    refine ⟨by simp, ?_⟩
    rwa [List.drop_left, ← List.drop_drop, List.drop_left, List.drop_left]
  obtain ⟨c, blank, rfl⟩ | ⟨body, rfl, inside, ends⟩ | ⟨body, rfl, closes⟩ :=
    Scan.isCut_gap_iff.mp isCut
  · exact .inl ⟨rfl, c, by simp, blank⟩
  · exact .inr (comment (.line inside ends))
  · refine .inr (comment (.block ?_))
    simpa [Scan.EnclosedBy] using Scan.enclosedBy_of_commentWidth? closes

theorem tiled_place {pieces : List Scan.Piece} (cuts : Scan.Cuts pieces []) (before : List Char) :
    Tiled (before ++ Scan.joined pieces) before.length (Scan.place before.length pieces) := by
  induction pieces generalizing before with
  | nil =>
    have ends : (before ++ Scan.joined []).length = before.length := by simp
    rw [Scan.place, Tiled, ends]
    exact Relation.ReflTransGen.refl
  | cons piece rest ih =>
    obtain ⟨isCut, cuts⟩ := cuts
    have later := ih cuts (before ++ piece.text)
    rw [List.append_assoc, List.length_append] at later
    rw [List.append_nil] at isCut
    obtain ⟨_ | kind, text⟩ := piece
    · exact later.widen (skipsAt_of_isCut isCut)
    · exact ⟨Relation.ReflTransGen.refl, later⟩

theorem Tiled.gap {start : Nat} (tiled : Tiled text start (before ++ after)) :
    Gap text ((before.getLast?.map (·.stop)).getD start) (Token.firstStart text after) := by
  induction before generalizing start with
  | nil =>
    cases after with
    | nil => exact tiled
    | cons token rest => exact tiled.1
  | cons token rest ih =>
    have later := ih tiled.2
    rw [List.getLast?_cons]
    cases last : rest.getLast? with
    | none =>
      rw [last] at later
      exact later
    | some found =>
      rw [last] at later
      exact later

/-- Neither a token nor the end of a text begins with a blank or a comment. -/
theorem not_skipsAt_firstStart (h : tokenize text = .ok (before ++ after)) (stop : Nat) :
    ¬SkipsAt text (Token.firstStart text after) stop := by
  intro skips
  cases after with
  | nil =>
    have bounds := skips.bounds
    simp only [Token.firstStart, List.head?_nil, Option.map_none, Option.getD_none] at bounds
    omega
  | cons token rest =>
    obtain ⟨pieces, rfl, cuts, placed⟩ := tokenize_eq_ok.mp h
    obtain ⟨first, piece, second, rfl, -, kind, -, start, -, -⟩ :=
      Scan.place_eq_append_cons placed
    obtain ⟨c, more, same, found⟩ := (Scan.cuts_append.mp cuts).2.1
    obtain ⟨c', body, width, front, gap, -⟩ := skips.cut
    have begins : (Scan.joined (first ++ piece :: second)).drop
        (Token.firstStart (Scan.joined (first ++ piece :: second)) (token :: rest)) =
          c :: (more ++ Scan.joined second) := by
      simp only [Token.firstStart, List.head?_cons, Option.map_some, Option.getD_some, start,
        Nat.zero_add, Scan.joined_append, Scan.joined_cons, List.drop_left, same,
        List.cons_append]
    rw [begins] at front
    cases front
    rw [List.append_nil, gap, kind] at found
    cases found

/-- The text of a token is the slice that it covers. -/
theorem text_of_tokenize (h : tokenize text = .ok tokens) (member : token ∈ tokens) :
    token.text = String.ofList (token.span.slice text) := by
  obtain ⟨pieces, rfl, -, placed⟩ := tokenize_eq_ok.mp h
  obtain ⟨before, after, rfl⟩ := List.append_of_mem member
  obtain ⟨first, piece, second, rfl, -, -, text, start, stop, -⟩ :=
    Scan.place_eq_append_cons placed
  rw [Nat.zero_add] at start
  rw [Scan.joined_append, Scan.joined_cons, Token.span, Span.slice_append _ _ _ start stop, text]

theorem start_lt_lastStop (spaced : Spaced offset (before ++ after) size)
    (member : token ∈ before) : token.start < Token.lastStop before := by
  obtain ⟨middle, spaced, -⟩ := spaced.split
  rcases List.eq_nil_or_concat' before with rfl | ⟨first, last, rfl⟩
  · exact absurd member List.not_mem_nil
  · obtain ⟨i, rfl⟩ := List.get_of_mem member
    let final : Fin (first ++ [last]).length := ⟨first.length, by simp⟩
    have below : i ≤ final := by
      have bound := i.isLt
      simp only [List.length_append, List.length_singleton] at bound
      exact Nat.le_of_lt_succ bound
    simpa [final, Token.lastStop] using (spaced.start_lt_stop below).1

theorem firstStart_le (spaced : Spaced offset (before ++ after) size) (member : token ∈ after) :
    Token.firstStart text after ≤ token.start := by
  obtain ⟨middle, -, spaced⟩ := spaced.split
  cases after with
  | nil => exact absurd member List.not_mem_nil
  | cons first rest =>
    have begins : Spaced first.start (first :: rest) size := ⟨le_rfl, spaced.2⟩
    obtain ⟨i, rfl⟩ := List.get_of_mem member
    exact begins.start_le i

theorem gap_of_tokenize (h : tokenize text = .ok (before ++ after)) :
    Gap text (Token.lastStop before) (Token.firstStart text after) := by
  obtain ⟨pieces, rfl, cuts, placed⟩ := tokenize_eq_ok.mp h
  have tiled : Tiled (Scan.joined pieces) 0 (Scan.place 0 pieces) := tiled_place cuts []
  rw [placed] at tiled
  exact tiled.gap

end Tokens

namespace Scan

section Stops

/-! ## Where the scanner stops -/

/-- What is reported of an unterminated literal begins in the text ahead. -/
theorem cut_unterminated {c : Char} (h : cut c rest = .error (.unterminated what skipped)) :
    skipped ≤ rest.length + 1 := by
  obtain ⟨more, -, same⟩ | failed | ⟨-, -, found⟩ := cut_cases h
  · cases same
  · cases failed
    exact Nat.zero_le _
  · cases found ▸ tokenCut_cutToken c rest with
    | unclosed le => exact le
    | plain _ _ plain =>
      unfold cutPlain at plain
      dsimp only at plain
      split_ifs at plain <;> cases plain

/-- The scanner stops with characters ahead, and reports some of them. -/
theorem piecesFrom_eq_error {skip : Nat} {stopped : Stopped}
    (h : piecesFrom skip text = .error stopped) :
    0 < stopped.ahead ∧ stopped.ahead ≤ text.length ∧
      ∀ what skipped, stopped.stop = .unterminated what skipped → skipped ≤ stopped.ahead := by
  fun_induction piecesFrom skip text with
  | case1 => cases h
  | case2 skip c rest ih =>
    obtain ⟨some, fits, reported⟩ := ih h
    exact ⟨some, Nat.le_succ_of_le fits, reported⟩
  | case3 c rest stop stops =>
    cases h
    refine ⟨Nat.succ_pos _, le_rfl, ?_⟩
    rintro what skipped rfl
    exact cut_unterminated stops
  | case4 c rest kind more isCut stopped' found ih =>
    cases h
    obtain ⟨some, fits, reported⟩ := ih found
    exact ⟨some, Nat.le_succ_of_le fits, reported⟩
  | case5 => cases h

end Stops

end Scan

/-- The place of an error of the scanner lies in the text. -/
theorem span_of_tokenize_error {error : ParseError} (h : tokenize text = .error (.rejected error)) :
    error.span.start ≤ error.span.stop ∧ error.span.stop ≤ text.length := by
  unfold tokenize at h
  cases found : Scan.pieces text with
  | ok pieces =>
    rw [found] at h
    cases h
  | error stopped =>
    rw [found] at h
    obtain ⟨some, fits, reported⟩ := Scan.piecesFrom_eq_error found
    obtain ⟨stop, ahead⟩ := stopped
    cases stop with
    | unterminated what skipped =>
      cases h
      have begins := reported what skipped rfl
      dsimp only at begins fits ⊢
      omega
    | unexpected c =>
      cases h
      dsimp only at some fits ⊢
      omega
    | foreignDigit => cases h

/-- The tokens of a text are nonempty slices of it, one behind the other. Between them, before the
first and behind the last stands a gap, and no token begins in a comment of a gap. Where a text has
no tokens, the error has a place in it. -/
theorem tokens_partition_text (text : List Char) :
    (∀ tokens, tokenize text = .ok tokens →
      (∀ token ∈ tokens, token.start < token.stop ∧ token.stop ≤ text.length ∧
        token.text = String.ofList (token.span.slice text)) ∧
      tokens.Pairwise (fun left right => left.stop ≤ right.start) ∧
      ∀ before after, tokens = before ++ after →
        Gap text (Token.lastStop before) (Token.firstStart text after) ∧
        ∀ start stop, Gap text (Token.lastStop before) start → CommentAt text start stop →
          ∀ token ∈ tokens, token.start < start ∨ stop ≤ token.start) ∧
    ∀ error, tokenize text = .error (.rejected error) →
      error.span.start ≤ error.span.stop ∧ error.span.stop ≤ text.length := by
  refine ⟨fun tokens h => ⟨?_, (spaced_of_tokenize h).pairwise, ?_⟩,
    fun error => span_of_tokenize_error⟩
  · intro token member
    obtain ⟨i, rfl⟩ := List.get_of_mem member
    have bounds := (spaced_of_tokenize h).start_lt_stop (le_refl i)
    exact ⟨bounds.1, bounds.2, text_of_tokenize h member⟩
  · rintro before after rfl
    have gap := gap_of_tokenize h
    refine ⟨gap, ?_⟩
    intro start stop reached comment token member
    have ends : stop ≤ Token.firstStart text after :=
      gap.le_of_full (not_skipsAt_firstStart h) (reached.tail (.inr comment))
    rcases List.mem_append.mp member with earlier | later
    · exact .inl (Nat.lt_of_lt_of_le (start_lt_lastStop (spaced_of_tokenize h) earlier) reached.le)
    · exact .inr (ends.trans (firstStart_le (spaced_of_tokenize h) later))

/-- Two words with nested comments between them and a line comment behind them. -/
theorem tokens_partition_text_nested :
    tokenize "a/*/**/*/b//c".toList = .ok [⟨⟨.ident, "a"⟩, 0, 1⟩, ⟨⟨.ident, "b"⟩, 9, 10⟩] ∧
      Gap "a/*/**/*/b//c".toList 1 9 ∧ Gap "a/*/**/*/b//c".toList 10 13 := by
  have tokenized : tokenize "a/*/**/*/b//c".toList =
      .ok [⟨⟨.ident, "a"⟩, 0, 1⟩, ⟨⟨.ident, "b"⟩, 9, 10⟩] := by decide +kernel
  obtain ⟨-, -, gaps⟩ := (tokens_partition_text _).1 _ tokenized
  refine ⟨tokenized, ?_, ?_⟩
  · exact (gaps [⟨⟨.ident, "a"⟩, 0, 1⟩] [⟨⟨.ident, "b"⟩, 9, 10⟩] rfl).1
  · exact (gaps [⟨⟨.ident, "a"⟩, 0, 1⟩, ⟨⟨.ident, "b"⟩, 9, 10⟩] [] rfl).1

end ActorGlue
