import ActorGlue.Proofs.Token.Barrier

/-!
# Scanned pieces

The pieces of a text concatenate to it, and each of them is the first piece of what is left of the
text. Said with an arbitrary text behind them, this is a relation that can be taken apart between
pieces: a stretch of pieces up to a barrier is scanned in the same way in front of any other text,
and so are gaps that do not end in an open line.
-/

namespace ActorGlue.Scan

variable {ahead other text : List Char} {c : Char} {pieces : List Piece}

/-- The text of several pieces. -/
def joined (pieces : List Piece) : List Char :=
  pieces.flatMap (·.text)

@[simp]
theorem joined_nil : joined [] = [] :=
  rfl

@[simp]
theorem joined_cons (piece : Piece) (pieces : List Piece) :
    joined (piece :: pieces) = piece.text ++ joined pieces :=
  rfl

@[simp]
theorem joined_append (first second : List Piece) :
    joined (first ++ second) = joined first ++ joined second :=
  List.flatMap_append

/-- The piece is cut off in front of the given text. -/
def Piece.IsCut (piece : Piece) (ahead : List Char) : Prop :=
  ∃ c more, piece.text = c :: more ∧ cut c (more ++ ahead) = .ok ⟨piece.kind, more.length⟩

/-- The pieces are cut off one after the other in front of the given text. -/
def Cuts : List Piece → List Char → Prop
  | [], _ => True
  | piece :: rest, ahead => piece.IsCut (joined rest ++ ahead) ∧ Cuts rest ahead

theorem cuts_append {first second : List Piece} :
    Cuts (first ++ second) ahead ↔ Cuts first (joined second ++ ahead) ∧ Cuts second ahead := by
  induction first with
  | nil => simp [Cuts]
  | cons piece first ih => simp only [List.cons_append, Cuts, ih, joined_append, List.append_assoc,
      and_assoc]

theorem piecesFrom_eq_ok {skip : Nat} {text : List Char} (h : piecesFrom skip text = .ok pieces) :
    joined pieces = text.drop skip ∧ Cuts pieces [] := by
  fun_induction piecesFrom skip text generalizing pieces with
  | case1 => cases h; simp [Cuts]
  | case2 skip c rest ih => simpa using ih h
  | case3 => cases h
  | case4 => cases h
  | case5 c rest kind more isCut pieces found ih =>
    cases h
    obtain ⟨same, cuts⟩ := ih found
    have fits := cut_le isCut
    refine ⟨by simp [same], ⟨c, rest.take more, rfl, ?_⟩, cuts⟩
    simpa [same, fits] using isCut

theorem piecesFrom_drop (skip : Nat) (text : List Char) :
    piecesFrom skip text = piecesFrom 0 (text.drop skip) := by
  induction text generalizing skip with
  | nil => cases skip <;> rfl
  | cons c rest ih =>
    cases skip with
    | zero => rfl
    | succ skip => simpa [piecesFrom] using ih skip

theorem pieces_of_cuts (cuts : Cuts pieces []) : Scan.pieces (joined pieces) = .ok pieces := by
  induction pieces with
  | nil => rfl
  | cons piece rest ih =>
    obtain ⟨⟨c, more, text, isCut⟩, cuts⟩ := cuts
    simp only [List.append_nil] at isCut
    have found : piecesFrom more.length (more ++ joined rest) = .ok rest := by
      rw [piecesFrom_drop, List.drop_left]
      exact ih cuts
    obtain ⟨kind, _⟩ := piece
    simp only at text
    subst text
    simp [Scan.pieces, piecesFrom, isCut, found]

/-- The pieces of a text are those that are cut off it up to its end. -/
theorem pieces_eq_ok {text : List Char} :
    Scan.pieces text = .ok pieces ↔ joined pieces = text ∧ Cuts pieces [] := by
  constructor
  · intro h
    simpa using piecesFrom_eq_ok h
  · rintro ⟨rfl, cuts⟩
    exact pieces_of_cuts cuts

section Gaps

/-- Nothing is left of the line. -/
def EndsLine (ahead : List Char) : Prop :=
  ∀ c ∈ ahead.head?, c = '\n'

theorem cut_blank (blank : Text.isBlank c) (rest : List Char) : cut c rest = .ok ⟨none, 0⟩ := by
  simp [cut, blank]

theorem takeWhile_line {body : List Char} :
    ((body ++ ahead).takeWhile (· ≠ '\n')).length = body.length ↔
      (∀ d ∈ body, d ≠ '\n') ∧ EndsLine ahead := by
  induction body with
  | nil =>
    cases ahead with
    | nil => simp [EndsLine]
    | cons d rest => by_cases line : d = '\n' <;> simp [EndsLine, line]
  | cons d body ih =>
    by_cases line : d = '\n'
    · simp [line]
    · simp only [List.cons_append, List.takeWhile_cons, line, ne_eq, not_false_eq_true,
        decide_true, if_true, List.length_cons, Nat.add_right_cancel_iff, ih, List.forall_mem_cons,
        true_and]

/-- A gap is a blank, the rest of a line, or a closed comment. -/
theorem isCut_gap_iff : Piece.IsCut ⟨none, text⟩ ahead ↔
    (∃ c, Text.isBlank c ∧ text = [c]) ∨
    (∃ body, text = '/' :: '/' :: body ∧ (∀ d ∈ body, d ≠ '\n') ∧ EndsLine ahead) ∨
    ∃ body, text = '/' :: '*' :: body ∧ commentWidth? 0 (body ++ ahead) = some body.length := by
  constructor
  · rintro ⟨c, more, rfl, found⟩
    cases blank : Text.isBlank c with
    | true =>
      rw [cut_blank blank] at found
      simp only [Except.ok.injEq, Cut.mk.injEq, true_and] at found
      exact .inl ⟨c, blank, by rw [List.eq_nil_of_length_eq_zero found.symm]⟩
    | false =>
      by_cases comment : c = '/' → (more ++ ahead).head? ≠ some '/' ∧
          (more ++ ahead).head? ≠ some '*'
      · rw [cut_token blank comment] at found
        obtain ⟨kind, token, -⟩ := cutToken_kind found
        cases token
      · rw [Classical.not_imp, not_and_or, not_not, not_not] at comment
        obtain ⟨rfl, opens⟩ := comment
        cases more with
        | nil =>
          obtain opens | opens := opens <;>
            obtain ⟨body, rfl⟩ := List.head?_eq_some_iff.mp opens <;>
            simp only [cut, blank, Bool.false_eq_true, if_false, List.nil_append] at found
          · simp at found
          · split at found <;> simp at found
        | cons d body =>
          obtain opens | opens := opens <;> cases opens <;>
            simp only [cut, blank, Bool.false_eq_true, if_false, List.cons_append,
              List.length_cons] at found
          · simp only [Except.ok.injEq, Cut.mk.injEq, true_and] at found
            exact .inr (.inl ⟨body, rfl, takeWhile_line.mp (by omega)⟩)
          · split at found
            · rename_i width closes
              simp only [Except.ok.injEq, Cut.mk.injEq, true_and] at found
              exact .inr (.inr ⟨body, rfl, by rw [closes]; congr 1; omega⟩)
            · cases found
  · have slash : Text.isBlank '/' = false := by decide
    rintro (⟨c, blank, rfl⟩ | ⟨body, rfl, line⟩ | ⟨body, rfl, closes⟩)
    · exact ⟨c, [], rfl, cut_blank blank _⟩
    · refine ⟨'/', '/' :: body, rfl, ?_⟩
      simp only [cut, slash, Bool.false_eq_true, if_false, List.cons_append, takeWhile_line.mpr line,
        List.length_cons, Nat.add_comm]
    · refine ⟨'/', '*' :: body, rfl, ?_⟩
      simp only [cut, slash, Bool.false_eq_true, if_false, List.cons_append, closes,
        List.length_cons, Nat.add_comm]

/-- A gap is cut in front of any other text, except that what ends the line of a comment stays. -/
theorem isCut_gap (isCut : Piece.IsCut ⟨none, text⟩ ahead) (line : EndsLine ahead → EndsLine other) :
    Piece.IsCut ⟨none, text⟩ other := by
  rw [isCut_gap_iff] at isCut ⊢
  obtain blank | ⟨body, same, inside, ends⟩ | ⟨body, same, closes⟩ := isCut
  · exact .inl blank
  · exact .inr (.inl ⟨body, same, inside, line ends⟩)
  · exact .inr (.inr ⟨body, same, (commentWidth?_closing _).retarget closes le_rfl _⟩)

theorem endsLine_append (line : EndsLine ahead → EndsLine other) (inside : List Char) :
    EndsLine (inside ++ ahead) → EndsLine (inside ++ other) := by
  cases inside with
  | nil => exact line
  | cons => exact id

theorem cuts_gaps {gaps : List Piece} (cuts : Cuts gaps ahead)
    (gap : ∀ piece ∈ gaps, piece.kind = none) (line : EndsLine ahead → EndsLine other) :
    Cuts gaps other := by
  induction gaps with
  | nil => trivial
  | cons piece rest ih =>
    obtain ⟨isCut, cuts⟩ := cuts
    rw [List.forall_mem_cons] at gap
    obtain ⟨kind, text⟩ := piece
    obtain rfl : kind = none := gap.1
    exact ⟨isCut_gap isCut (endsLine_append line _), ih cuts gap.2⟩

end Gaps

section Tokens

theorem cut_ident {rest : List Char} {more : Nat} (h : cut c rest = .ok ⟨some .ident, more⟩) :
    isWordStart c := by
  obtain ⟨blank, comment⟩ := no_gap_of_cut h
  rw [cut_token blank comment] at h
  obtain ⟨kind, same, word⟩ := cutToken_kind h
  exact word (Option.some.inj same).symm

/-- Pieces are cut in front of another text if no token goes on with it, marks stop in front of it,
and a line that ends stays ended. -/
theorem cuts_retarget (cuts : Cuts pieces ahead) (ends : Ends other)
    (marks : ∀ text ≠ [], SameMark text ahead other) (line : EndsLine ahead → EndsLine other) :
    Cuts pieces other := by
  induction pieces with
  | nil => trivial
  | cons piece rest ih =>
    obtain ⟨isCut, cuts⟩ := cuts
    refine ⟨?_, ih cuts⟩
    obtain ⟨_ | kind, text⟩ := piece
    · exact isCut_gap isCut (endsLine_append line _)
    · obtain ⟨c, more, text, isCut⟩ := isCut
      refine ⟨c, more, text, ?_⟩
      rw [← List.append_assoc] at isCut ⊢
      exact cut_token_retarget isCut (by simp) ends fun _ => marks _ (by simp)

/-- What is cut up to the end is cut up to the end of a line. -/
theorem cuts_newline (cuts : Cuts pieces []) (rest : List Char) : Cuts pieces ('\n' :: rest) := by
  have breaks : ∀ c ∈ ('\n' :: rest).head?, isBreak c := by
    rintro c head
    obtain rfl : '\n' = c := by simpa using head
    decide
  exact cuts_retarget cuts (ends_of_seal (by decide) (by decide) rest)
    (fun _ some => sameMark_of_breaks breaks some) (by simp [EndsLine])

end Tokens

section Barriers

def Piece.IsBarrier (piece : Piece) : Prop :=
  ∃ c, piece.text = [c] ∧ isBarrier c

theorem cuts_of_barrier (barrier : isBarrier c) (cuts : Cuts pieces (c :: ahead))
    (closes : Closes other) : Cuts pieces other := by
  refine cuts_retarget cuts closes.ends (fun _ some => sameMark_of_breaks closes.breaks some)
    fun line => ?_
  obtain rfl : c = '\n' := line c rfl
  exact absurd barrier (by decide)

/-- Pieces up to a barrier are cut in front of any other text. -/
theorem cuts_through_barrier {last : Piece} (barrier : last.IsBarrier)
    (cuts : Cuts (pieces ++ [last]) ahead) (other : List Char) : Cuts (pieces ++ [last]) other := by
  obtain ⟨c, text, isBarrier⟩ := barrier
  rw [cuts_append] at cuts ⊢
  obtain ⟨before, ⟨⟨d, more, text', isCut⟩, -⟩⟩ := cuts
  obtain ⟨rfl, rfl⟩ : d = c ∧ more = [] := by simpa [text, eq_comm] using text'
  simp only [joined_cons, joined_nil, List.append_nil, text] at before ⊢
  refine ⟨cuts_of_barrier isBarrier before (closes_cons isBarrier other), ⟨d, [], text, ?_⟩,
    trivial⟩
  rw [cut_barrier isBarrier] at isCut ⊢
  exact isCut

/-- Pieces before a barrier make up a text of their own. -/
theorem cuts_before_barrier {last : Piece} (barrier : last.IsBarrier)
    (cuts : Cuts (pieces ++ [last]) ahead) : Cuts pieces [] := by
  obtain ⟨c, text, isBarrier⟩ := barrier
  have before := (cuts_append.mp cuts).1
  simp only [joined_cons, joined_nil, List.append_nil, text] at before
  exact cuts_of_barrier isBarrier before closes_nil

end Barriers

theorem place_append (offset : Nat) (first second : List Piece) :
    place offset (first ++ second) =
      place offset first ++ place (offset + (joined first).length) second := by
  induction first generalizing offset with
  | nil => simp [place]
  | cons piece first ih =>
    simp only [List.cons_append, place, ih, joined_cons, List.length_append, Nat.add_assoc]
    split <;> simp

end ActorGlue.Scan

namespace ActorGlue.Token

/-- The token moved by an offset. -/
def shift (token : Token) (offset : Nat) : Token :=
  ⟨token.toLexeme, token.start + offset, token.stop + offset⟩

end ActorGlue.Token

namespace ActorGlue.Scan

theorem place_shift (offset distance : Nat) (pieces : List Piece) :
    place (offset + distance) pieces = (place offset pieces).map (·.shift distance) := by
  induction pieces generalizing offset with
  | nil => rfl
  | cons piece rest ih =>
    have moved := ih (offset + piece.text.length)
    rw [Nat.add_right_comm] at moved
    simp only [place, moved]
    split <;> simp [Token.shift, Nat.add_right_comm]

/-- Where a token of a placed list stands among the pieces. -/
theorem place_eq_append_cons {offset : Nat} {pieces : List Piece} {before after : List Token}
    {token : Token} (h : place offset pieces = before ++ token :: after) :
    ∃ first piece second, pieces = first ++ piece :: second ∧ place offset first = before ∧
      piece.kind = some token.kind ∧ token.text = String.ofList piece.text ∧
      token.start = offset + (joined first).length ∧
      token.stop = token.start + piece.text.length ∧ place token.stop second = after := by
  induction pieces generalizing offset before with
  | nil => cases before <;> cases h
  | cons piece rest ih =>
    simp only [place] at h
    split at h
    · rename_i gap
      obtain ⟨first, found, second, rfl, rfl, kind, text, start, stop, after⟩ := ih h
      refine ⟨piece :: first, found, second, rfl, ?_, kind, text, ?_, stop, after⟩
      · simp [place, gap]
      · simp [start, Nat.add_assoc]
    · rename_i kind isToken
      cases before with
      | nil =>
        obtain ⟨rfl, rfl⟩ := List.cons.inj h
        exact ⟨[], piece, rest, rfl, rfl, isToken, rfl, rfl, rfl, rfl⟩
      | cons first before =>
        rw [List.cons_append] at h
        obtain ⟨rfl, tail⟩ := List.cons.inj h
        obtain ⟨first, found, second, rfl, rfl, kind, text, start, stop, after⟩ := ih tail
        refine ⟨piece :: first, found, second, rfl, ?_, kind, text, ?_, stop, after⟩
        · simp [place, isToken]
        · simp [start, Nat.add_assoc]

theorem place_gaps {offset : Nat} {pieces : List Piece} (none : place offset pieces = []) :
    ∀ piece ∈ pieces, piece.kind = Option.none := by
  induction pieces generalizing offset with
  | nil => simp
  | cons piece rest ih =>
    simp only [place] at none
    split at none
    · rename_i gap
      exact List.forall_mem_cons.mpr ⟨gap, ih none⟩
    · cases none

end ActorGlue.Scan
