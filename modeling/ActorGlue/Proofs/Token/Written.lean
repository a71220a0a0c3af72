import ActorGlue.Proofs.Token.Slices

/-!
# Written text

Text that is put together from tokens, blanks and fixed parts is cut into the tokens again. A part
is read in front of what follows it: a word in front of anything that does not go on with it, a mark
in front of anything that does not make it a longer one, and a part that ends with a blank or with a
mark that never goes on in front of any text.
-/

namespace ActorGlue

/-- The lexeme is the token of its text. -/
def Lexeme.IsToken (lexeme : Lexeme) : Prop :=
  Scan.Piece.IsCut ⟨some lexeme.kind, lexeme.text.toList⟩ []

namespace Scan

variable {ahead text : List Char} {lexemes : List Lexeme} {c : Char}

/-- The lexemes among the pieces. -/
def lexemesOf (pieces : List Piece) : List Lexeme :=
  pieces.filterMap fun piece => piece.kind.map fun kind => ⟨kind, String.ofList piece.text⟩

theorem map_place (offset : Nat) (pieces : List Piece) :
    (place offset pieces).map (·.toLexeme) = lexemesOf pieces := by
  induction pieces generalizing offset with
  | nil => rfl
  | cons piece rest ih =>
    obtain ⟨_ | kind, text⟩ := piece
    · simpa [place, lexemesOf] using ih _
    · simpa [place, lexemesOf] using ih _

/-- The text is cut into the lexemes, with gaps between them, in front of another text. -/
def Reads (text : List Char) (lexemes : List Lexeme) (ahead : List Char) : Prop :=
  ∃ pieces, joined pieces = text ∧ Cuts pieces ahead ∧ lexemesOf pieces = lexemes

theorem Reads.nil (ahead : List Char) : Reads [] [] ahead :=
  ⟨[], rfl, trivial, rfl⟩

theorem Reads.append {first second : List Char} {others : List Lexeme}
    (here : Reads first lexemes (second ++ ahead)) (there : Reads second others ahead) :
    Reads (first ++ second) (lexemes ++ others) ahead := by
  obtain ⟨pieces, rfl, cuts, rfl⟩ := here
  obtain ⟨pieces', rfl, cuts', rfl⟩ := there
  refine ⟨pieces ++ pieces', joined_append _ _, cuts_append.mpr ⟨cuts, cuts'⟩, ?_⟩
  simp [lexemesOf]

theorem reads_iff_tokenize :
    Reads text lexemes [] ↔
      ∃ tokens, tokenize text = .ok tokens ∧ tokens.map (·.toLexeme) = lexemes := by
  constructor
  · rintro ⟨pieces, joins, cuts, rfl⟩
    exact ⟨_, tokenize_eq_ok.mpr ⟨pieces, joins, cuts, rfl⟩, map_place 0 pieces⟩
  · rintro ⟨tokens, found, rfl⟩
    obtain ⟨pieces, joins, cuts, rfl⟩ := tokenize_eq_ok.mp found
    exact ⟨pieces, joins, cuts, (map_place 0 pieces).symm⟩

theorem isToken_of_cuts {pieces : List Piece} (cuts : Cuts pieces ahead) :
    ∀ lexeme ∈ lexemesOf pieces, lexeme.IsToken := by
  induction pieces with
  | nil => simp [lexemesOf]
  | cons piece rest ih =>
    obtain ⟨⟨c, more, same, isCut⟩, cuts⟩ := cuts
    obtain ⟨_ | kind, text⟩ := piece
    · simpa [lexemesOf] using ih cuts
    · obtain rfl : text = c :: more := same
      have alone : Lexeme.IsToken ⟨kind, String.ofList (c :: more)⟩ := by
        refine ⟨c, more, String.toList_ofList, ?_⟩
        rw [List.append_nil]
        have retargeted := cut_token_retarget isCut le_rfl ends_nil fun _ =>
          sameMark_of_breaks (by simp) (by simp)
        rwa [List.append_nil] at retargeted
      exact List.forall_mem_cons.mpr ⟨alone, ih cuts⟩

/-- The tokens of a text are the tokens of their own texts. -/
theorem Reads.isToken (reads : Reads text lexemes ahead) : ∀ lexeme ∈ lexemes, lexeme.IsToken := by
  obtain ⟨pieces, -, cuts, rfl⟩ := reads
  exact isToken_of_cuts cuts

theorem isScanned_of_isToken {lexeme : Lexeme} (isToken : lexeme.IsToken) : lexeme.IsScanned := by
  intro word
  obtain ⟨c, more, text, isCut⟩ := isToken
  replace text : lexeme.text.toList = c :: more := text
  rw [word] at isCut
  simp [text, cut_ident isCut]

theorem Reads.isScanned (reads : Reads text lexemes ahead) : ∀ lexeme ∈ lexemes, lexeme.IsScanned :=
  fun lexeme member => isScanned_of_isToken (reads.isToken lexeme member)

section Lexemes

variable {lexeme : Lexeme} {ahead : List Char}

theorem reads_of_isCut (isCut : Piece.IsCut ⟨some lexeme.kind, lexeme.text.toList⟩ ahead) :
    Reads lexeme.text.toList [lexeme] ahead := by
  refine ⟨[⟨some lexeme.kind, lexeme.text.toList⟩], by simp [joined], ⟨by simpa using isCut, trivial⟩,
    ?_⟩
  simp [lexemesOf]

/-- A token that is no mark is read in front of what it does not go on with. -/
theorem reads_token (isToken : lexeme.IsToken) (other : lexeme.kind ≠ .punct)
    (ends : Ends ahead) : Reads lexeme.text.toList [lexeme] ahead := by
  obtain ⟨c, more, text, isCut⟩ := isToken
  refine reads_of_isCut ⟨c, more, text, ?_⟩
  exact cut_token_retarget isCut le_rfl ends fun punct => absurd punct other

/-- No word, numeral or literal begins with the character, and no blank is it. -/
def startsMark (c : Char) : Bool :=
  !Text.isBlank c && !isWordStart c && !c.isDigit && !Text.isDigitLike c && c ≠ '"' && c ≠ '\''

theorem wordWidth_ne_zero (word : isWordStart c) (rest : List Char) :
    wordWidth (c :: rest) ≠ 0 := by
  have plain : ∀ rest, plainWordWidth (c :: rest) ≠ 0 := by
    intro rest
    simp only [plainWordWidth, word, if_true]
    omega
  unfold wordWidth
  split
  · rename_i more same
    obtain ⟨rfl, rfl⟩ := List.cons.inj same
    split_ifs
    · exact plain _
    · omega
  · exact plain _

theorem wordWidth_eq_zero (other : isWordStart c = false) (rest : List Char) :
    wordWidth (c :: rest) = 0 := by
  by_contra word
  rw [isWordStart_of_wordWidth word] at other
  cases other

theorem rawOpening?_eq_none (other : isWordStart c = false) (rest : List Char) :
    rawOpening? (c :: rest) = none := by
  have apart : ∀ d, isWordStart d → c ≠ d := by
    rintro d word rfl
    rw [word] at other
    cases other
  rw [rawOpening?_of_ne (by simpa using apart 'b' (by decide)), rawOpeningAfter?]
  rintro more same
  exact apart 'r' (by decide) (List.cons.inj same).1

theorem cutPlain_of_kind {rest : List Char} {kind : Token.Kind} {more : Nat}
    (other : kind ∉ [.str, .char, .lifetime]) (h : cut c rest = .ok ⟨some kind, more⟩) :
    c ≠ '"' ∧ c ≠ '\'' ∧ cutPlain c rest = .ok ⟨some kind, more⟩ := by
  obtain ⟨blank, comment⟩ := no_gap_of_cut h
  rw [cut_token blank comment] at h
  cases h ▸ tokenCut_cutToken c rest with
  | literal among _ => exact absurd among other
  | plain quoted quote plain => exact ⟨quoted, quote, plain⟩

/-- A mark is cut off as wide as it goes, unless it opens a comment. -/
theorem cut_eq_punct {rest : List Char} {more : Nat} :
    cut c rest = .ok ⟨some .punct, more⟩ ↔ startsMark c ∧
      (c = '/' → rest.head? ≠ some '/' ∧ rest.head? ≠ some '*') ∧
      markWidth (c :: rest) = more + 1 := by
  constructor
  · intro h
    obtain ⟨blank, comment⟩ := no_gap_of_cut h
    obtain ⟨quoted, quote, plain⟩ := cutPlain_of_kind (by decide) h
    unfold cutPlain at plain
    dsimp only at plain
    split_ifs at plain with digit foreign word mark
    · simp only [Except.ok.injEq, Cut.mk.injEq, Option.some.injEq, numeralKind] at plain
      split_ifs at plain <;> cases plain.1
    · cases plain
    · have apart : isWordStart c = false := by
        by_contra start
        exact wordWidth_ne_zero (by simpa using start) rest (not_not.mp word)
      refine ⟨?_, comment, ?_⟩
      · simp [startsMark, blank, apart, digit, foreign, quoted, quote]
      · simp only [Except.ok.injEq, Cut.mk.injEq, true_and] at plain
        omega
  · rintro ⟨starts, comment, width⟩
    simp only [startsMark, Bool.and_eq_true, Bool.not_eq_true', decide_eq_true_eq] at starts
    obtain ⟨⟨⟨⟨⟨blank, word⟩, digit⟩, foreign⟩, quoted⟩, quote⟩ := starts
    have bytes : c = 'b' → rest.head? ≠ some '"' ∧ rest.head? ≠ some '\'' := by
      rintro rfl
      exact absurd word (by decide)
    rw [cut_token blank comment, cutToken_plain (rawOpening?_eq_none word rest) quoted quote bytes]
    simp [cutPlain, digit, foreign, wordWidth_eq_zero word, width]

/-- The mark becomes a longer one with the character. -/
def goesOn (mark : List Char) (c : Char) : Bool :=
  compoundMarks.any fun longer => (mark ++ [c]).isPrefixOf longer

theorem find?_mark_of_stays {mark : List Char} (stays : ∀ c ∈ ahead.head?, goesOn mark c = false) :
    compoundMarks.find? (fun longer => longer.isPrefixOf (mark ++ ahead)) =
      compoundMarks.find? fun longer => longer.isPrefixOf mark := by
  refine List.find?_congr fun longer member => ?_
  rw [Bool.eq_iff_iff, List.isPrefixOf_iff_prefix, List.isPrefixOf_iff_prefix]
  constructor
  · intro before
    by_contra apart
    rcases List.prefix_or_prefix_of_prefix before (List.prefix_append mark ahead) with within | beyond
    · exact apart within
    · obtain ⟨rest, rfl⟩ := beyond
      rw [List.prefix_append_right_inj] at before
      cases rest with
      | nil => simp at apart
      | cons c rest =>
        obtain ⟨more, rfl⟩ := before
        have stays := stays c (by simp)
        rw [goesOn, List.any_eq_false] at stays
        refine stays _ member ?_
        rw [List.isPrefixOf_iff_prefix]
        exact ⟨rest, by simp⟩
  · intro before
    exact before.trans (List.prefix_append _ _)

/-- A mark is read in front of what it does not go on with and makes no comment with. -/
theorem reads_mark (isToken : lexeme.IsToken) (punct : lexeme.kind = .punct)
    (stays : ∀ c ∈ ahead.head?, goesOn lexeme.text.toList c = false)
    (slash : lexeme.text = "/" → ahead.head? ≠ some '/' ∧ ahead.head? ≠ some '*') :
    Reads lexeme.text.toList [lexeme] ahead := by
  obtain ⟨c, more, text, isCut⟩ := isToken
  simp only [punct, List.append_nil] at isCut text
  obtain ⟨starts, comment, width⟩ := cut_eq_punct.mp isCut
  refine reads_of_isCut ⟨c, more, text, ?_⟩
  rw [text] at stays
  rw [punct, cut_eq_punct]
  refine ⟨starts, fun same => ?_, ?_⟩
  · subst same
    cases more with
    | nil =>
      have slash := slash (String.toList_inj.mp text)
      simpa using slash
    | cons d more => exact comment rfl
  · rw [← width, ← List.cons_append]
    unfold markWidth
    rw [find?_mark_of_stays stays]
    rfl

end Lexemes

section Fixed

/-- The character is a blank or a mark, whatever follows it, and ends what stands before it. -/
def isFinal (c : Char) : Bool :=
  c ∈ [' ', '\n', '(', ')', '[', ']', '{', '}', '<', '>', ',', ';', '&', '?', '!']

theorem isFinal_cut (final : isFinal c) (rest : List Char) : cut c rest = cut c [] := by
  simp only [isFinal, List.mem_cons, List.not_mem_nil, or_false, decide_eq_true_eq] at final
  obtain rfl | rfl | rfl | rfl | rfl | rfl | rfl | rfl | rfl | rfl | rfl | rfl | rfl | rfl | rfl :=
    final <;> rfl

theorem ends_of_final (final : isFinal c) (ahead : List Char) : Ends (c :: ahead) := by
  simp only [isFinal, List.mem_cons, List.not_mem_nil, or_false, decide_eq_true_eq] at final
  refine ends_of_seal ?_ ?_ ahead <;>
  obtain rfl | rfl | rfl | rfl | rfl | rfl | rfl | rfl | rfl | rfl | rfl | rfl | rfl | rfl | rfl :=
    final <;> decide

/-- The lexemes of a text whose last piece is a character that ends it. -/
def settled? (text : List Char) : Option (List Lexeme) :=
  match Scan.pieces text with
  | .error _ => none
  | .ok pieces =>
    if pieces.getLast?.any fun piece => piece.text.all isFinal && piece.text.length = 1 then
      some (lexemesOf pieces)
    else none

/-- A settled text is read in front of any text. -/
theorem reads_settled (settled : settled? text = some lexemes) (ahead : List Char) :
    Reads text lexemes ahead := by
  unfold settled? at settled
  split at settled
  · cases settled
  · rename_i pieces found
    obtain ⟨joins, cuts⟩ := pieces_eq_ok.mp found
    split_ifs at settled with last
    obtain rfl := Option.some.inj settled
    refine ⟨pieces, joins, ?_, rfl⟩
    cases found : pieces.getLast? with
    | none => simp [found] at last
    | some piece =>
      obtain ⟨init, rfl⟩ := List.getLast?_eq_some_iff.mp found
      simp only [found, Option.any_some, Bool.and_eq_true, decide_eq_true_eq] at last
      obtain ⟨final, single⟩ := last
      obtain ⟨c, text⟩ := List.length_eq_one_iff.mp single
      rw [text, List.all_cons, List.all_nil, Bool.and_true] at final
      rw [cuts_append] at cuts ⊢
      obtain ⟨before, ⟨d, more, same, isCut⟩, -⟩ := cuts
      obtain ⟨rfl, rfl⟩ : d = c ∧ more = [] := by simpa [text, eq_comm] using same
      simp only [joined_cons, joined_nil, List.append_nil, text, List.singleton_append]
        at before ⊢
      refine ⟨cuts_retarget before (ends_of_final final ahead)
        (fun _ some => sameMark_of_head some) id, ⟨d, [], text, ?_⟩, trivial⟩
      rw [isFinal_cut final] at isCut ⊢
      exact isCut

end Fixed

section Gaps

theorem toNat_of_isWordPart (part : isWordPart c) :
    48 ≤ c.toNat ∧ c.toNat ≤ 57 ∨ 65 ≤ c.toNat ∧ c.toNat ≤ 90 ∨ c.toNat = 95 ∨
      97 ≤ c.toNat ∧ c.toNat ≤ 122 := by
  simp only [isWordPart, isWordStart, Char.isAlpha, Char.isUpper, Char.isLower, Char.isDigit,
    Bool.or_eq_true, Bool.and_eq_true, decide_eq_true_eq, UInt32.le_iff_toNat_le, ge_iff_le] at part
  simp only [Char.toNat]
  rcases part with (((upper | lower) | bar) | digit)
  · exact .inr (.inl upper)
  · exact .inr (.inr (.inr lower))
  · subst bar
    decide
  · exact .inl digit

theorem isSeal_of_blank (blank : Text.isBlank c) : isSeal c := by
  obtain ⟨range, member, low, high⟩ := Text.Ranges.holds_iff.mp blank
  simp only [isSeal, Bool.and_eq_true, Bool.not_eq_true', decide_eq_true_eq]
  constructor
  · by_contra part
    have codes := toNat_of_isWordPart (by simpa using part)
    simp only [Text.blankRanges, List.mem_cons, List.not_mem_nil, or_false] at member
    rcases member with rfl | rfl | rfl | rfl | rfl | rfl | rfl | rfl | rfl | rfl <;>
      simp only at low high <;> omega
  · intro mark
    simp only [List.mem_cons, List.not_mem_nil, or_false] at mark
    rcases mark with rfl | rfl | rfl | rfl | rfl | rfl | rfl <;> exact absurd blank (by decide)

/-- What is read up to the end is read up to the end of a line. -/
theorem Reads.line (reads : Reads text lexemes []) (rest : List Char) :
    Reads text lexemes ('\n' :: rest) := by
  obtain ⟨pieces, joins, cuts, same⟩ := reads
  exact ⟨pieces, joins, cuts_newline cuts rest, same⟩

theorem reads_blank (blank : Text.isBlank c) (ahead : List Char) : Reads [c] [] ahead :=
  ⟨[⟨none, [c]⟩], rfl, ⟨⟨c, [], rfl, cut_blank blank _⟩, trivial⟩, rfl⟩

theorem Reads.tail_of_blank {rest : List Char} (blank : Text.isBlank c)
    (reads : Reads (c :: rest) lexemes ahead) : Reads rest lexemes ahead := by
  obtain ⟨_ | ⟨piece, pieces⟩, joins, cuts, same⟩ := reads
  · cases joins
  · obtain ⟨⟨d, more, text, isCut⟩, cuts⟩ := cuts
    rw [joined_cons, text] at joins
    obtain ⟨rfl, behind⟩ := List.cons.inj joins
    rw [cut_blank blank] at isCut
    simp only [Except.ok.injEq, Cut.mk.injEq] at isCut
    obtain ⟨kind, length⟩ := isCut
    obtain rfl := List.eq_nil_of_length_eq_zero length.symm
    refine ⟨pieces, behind, cuts, ?_⟩
    obtain ⟨_, _⟩ := piece
    subst kind
    exact same

theorem Reads.dropBlanks (reads : Reads text lexemes ahead) :
    Reads (text.dropWhile Text.isBlank) lexemes ahead := by
  induction text with
  | nil => exact reads
  | cons c rest ih =>
    cases blank : Text.isBlank c with
    | true => simpa [blank] using ih (reads.tail_of_blank blank)
    | false => simpa [blank] using reads

end Gaps

section Trim

theorem lexemesOf_eq_nil {pieces : List Piece} (none : lexemesOf pieces = []) :
    ∀ piece ∈ pieces, piece.kind = Option.none := by
  intro piece member
  have gap := List.filterMap_eq_nil_iff.mp none piece member
  simpa using gap

/-- A closed comment ends with a slash. -/
theorem commentWidth?_last {depth : Nat} {width : Nat} (h : commentWidth? depth text = some width) :
    text[width - 1]? = some '/' := by
  have later : ∀ {depth : Nat} {text : List Char} {inner : Nat}, commentWidth? depth text = some inner →
      text[inner - 1]? = some '/' → ∀ c d : Char, (c :: text)[inner + 1 - 1]? = some '/' ∧
        (c :: d :: text)[inner + 2 - 1]? = some '/' := by
    intro depth text inner found slash c d
    obtain ⟨before, rfl⟩ : ∃ before, inner = before + 1 :=
      ⟨inner - 1, by have := (commentWidth?_closing _ _ _ found).1; omega⟩
    simpa using slash
  fun_induction commentWidth? depth text generalizing width with
  | case1 depth rest ih | case3 depth rest ih =>
    obtain ⟨inner, found, rfl⟩ := Option.map_eq_some_iff.mp h
    exact (later found (ih found) _ _).2
  | case2 =>
    cases h
    rfl
  | case4 depth c rest _ _ _ ih =>
    obtain ⟨inner, found, rfl⟩ := Option.map_eq_some_iff.mp h
    exact (later found (ih found) c c).1
  | case5 => cases h

/-- A gap without the blank at its end is a gap. -/
theorem reads_gap_init {gap : List Char} (blank : Text.isBlank c)
    (reads : Reads (gap ++ [c]) [] []) : Reads gap [] [] := by
  obtain ⟨pieces, joins, cuts, none⟩ := reads
  have gaps := lexemesOf_eq_nil none
  rcases pieces.eq_nil_or_concat with rfl | ⟨init, last, rfl⟩
  · simp at joins
  have before : ∀ piece ∈ init, piece.kind = Option.none := fun piece member =>
    gaps piece (by simp [member])
  have kind : last.kind = Option.none := gaps last (by simp)
  obtain ⟨_, text⟩ := last
  obtain rfl := kind
  rw [List.concat_eq_append] at joins cuts
  rw [cuts_append] at cuts
  obtain ⟨cutsInit, isCut, -⟩ := cuts
  simp only [joined_append, joined_cons, joined_nil, List.append_nil] at joins cutsInit isCut
  have slash : ∀ d, Text.isBlank d → d ≠ '/' := by
    rintro d blank rfl
    exact absurd blank (by decide)
  have unread : ∀ pieces : List Piece, (∀ piece ∈ pieces, piece.kind = Option.none) →
      lexemesOf pieces = [] := by
    intro pieces gaps
    exact List.filterMap_eq_nil_iff.mpr fun piece member => by simp [gaps piece member]
  rcases isCut_gap_iff.mp isCut with ⟨d, -, rfl⟩ | ⟨body, rfl, line, -⟩ | ⟨body, rfl, closes⟩
  · obtain ⟨rfl, -⟩ := List.append_inj' joins rfl
    exact ⟨init, rfl, cuts_gaps cutsInit before (by simp [EndsLine]), unread init before⟩
  · rcases body.eq_nil_or_concat with rfl | ⟨body, d, rfl⟩
    · have same := (List.append_inj' (show (joined init ++ ['/']) ++ ['/'] = gap ++ [c] by
        simpa using joins) rfl).2
      obtain rfl : '/' = c := by simpa using same
      exact absurd rfl (slash _ blank)
    · rw [List.concat_eq_append] at *
      have same := List.append_inj' (show (joined init ++ '/' :: '/' :: body) ++ [d] = gap ++ [c] by
        simpa using joins) rfl
      obtain rfl := same.1
      have isCut' : Piece.IsCut ⟨Option.none, '/' :: '/' :: body⟩ [] :=
        isCut_gap_iff.mpr (.inr (.inl ⟨body, rfl, fun d member => line d (by simp [member]),
          by simp [EndsLine]⟩))
      refine ⟨init ++ [⟨Option.none, '/' :: '/' :: body⟩], by simp, cuts_append.mpr ⟨?_, isCut',
        trivial⟩, unread _ ?_⟩
      · exact cuts_gaps cutsInit before id
      · simpa [or_imp, forall_and] using before
  · rw [List.append_nil] at closes
    have last := commentWidth?_last closes
    rcases body.eq_nil_or_concat with rfl | ⟨body, d, rfl⟩
    · simp at last
    · have same := (List.append_inj' (show (joined init ++ '/' :: '*' :: body) ++ [d] = gap ++ [c] by
        simpa using joins) rfl).2
      obtain rfl : d = c := by simpa using same
      obtain rfl : d = '/' := by simpa using last
      exact absurd rfl (slash _ blank)

theorem reads_gap_trimmed {gap : List Char} (reads : Reads gap [] []) :
    Reads (gap.reverse.dropWhile Text.isBlank).reverse [] [] := by
  induction gap using List.reverseRecOn with
  | nil => exact reads
  | append_singleton gap c ih =>
    cases blank : Text.isBlank c with
    | true => simpa [blank] using ih (reads_gap_init blank reads)
    | false => simpa [blank] using reads

/-- A text whose last token is a barrier is read after it and before the gaps that follow it. -/
theorem Reads.split_barrier {init : List Lexeme} {stop : Lexeme} (barrier : stop.isBarrier)
    (reads : Reads text (init ++ [stop]) []) :
    ∃ front c gap, text = (front ++ [c]) ++ gap ∧ isBarrier c ∧
      (∀ ahead, Reads (front ++ [c]) (init ++ [stop]) ahead) ∧ Reads gap [] [] := by
  obtain ⟨pieces, rfl, cuts, same⟩ := reads
  obtain ⟨first, others, rfl, rfl, last⟩ := List.filterMap_eq_append_iff.mp same
  obtain ⟨gaps, piece, after, rfl, none, found, rest⟩ := List.filterMap_eq_cons_iff.mp last
  obtain ⟨kind, isToken, rfl⟩ := Option.map_eq_some_iff.mp found
  obtain ⟨c, text, closes⟩ := isBarrier_piece barrier rfl
  have whole : first ++ (gaps ++ piece :: after) = ((first ++ gaps) ++ [piece]) ++ after := by simp
  rw [whole, cuts_append] at cuts
  have front : joined ((first ++ gaps) ++ [piece]) = joined (first ++ gaps) ++ [c] := by
    simp [text]
  refine ⟨joined (first ++ gaps), c, joined after, ?_, closes, fun ahead => ?_,
    ⟨after, rfl, cuts.2, rest⟩⟩
  · rw [whole, joined_append, front]
  · refine ⟨(first ++ gaps) ++ [piece], front, cuts_through_barrier ⟨c, text, closes⟩ cuts.1 ahead,
      ?_⟩
    have unread : gaps.filterMap (fun piece => piece.kind.map fun kind =>
        (⟨kind, String.ofList piece.text⟩ : Lexeme)) = [] :=
      List.filterMap_eq_nil_iff.mpr none
    simp [lexemesOf, unread, isToken]

/-- A text whose last token is a barrier is read the same without the blanks around it. -/
theorem Reads.trim {init : List Lexeme} {stop : Lexeme} (barrier : stop.isBarrier)
    (reads : Reads text (init ++ [stop]) []) : Reads (Text.trim text) (init ++ [stop]) [] := by
  obtain ⟨front, c, gap, same, closes, before, behind⟩ := reads.dropBlanks.split_barrier barrier
  have solid : Text.isBlank c = false := by
    obtain rfl | rfl | rfl | rfl := isBarrier_cases closes <;> decide
  have trimmed : Text.trim text =
      (front ++ [c]) ++ (gap.reverse.dropWhile Text.isBlank).reverse := by
    rw [Text.trim, same, List.reverse_append, List.dropWhile_append]
    split_ifs with empty
    · rw [List.isEmpty_iff.mp empty]
      simp [solid]
    · simp
  rw [trimmed, ← List.append_nil (init ++ [stop])]
  exact (before _).append (reads_gap_trimmed behind)

end Trim

end Scan

end ActorGlue
