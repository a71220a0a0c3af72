import ActorGlue.Proofs.Token.Pieces

/-!
# Tokens of slices

The tokens of a stretch of a text are tokens of the text, moved to where the stretch begins. This
holds for what stands before a barrier, for a text from which a stretch between two tokens was cut
out, and for the lines of a text that is put together from others.
-/

namespace ActorGlue

variable {text : List Char} {before tokens : List Token} {pieces : List Piece}
  {token opener closer last : Token} {start stop : Nat} {ahead : List Char}
  {inside after kept : List Token}

/-- The lexeme is a closing delimiter or a semicolon. -/
def Lexeme.isBarrier (lexeme : Lexeme) : Bool :=
  lexeme.isPunctOf [")", "]", "\x7d", ";"]

/-- A word begins like a word. -/
def Lexeme.IsScanned (lexeme : Lexeme) : Prop :=
  lexeme.kind = .ident → lexeme.text.toList.head?.any Scan.isWordStart

/-- Tokens one behind the other, all of them from an offset on and up to a size. -/
def Spaced : Nat → List Token → Nat → Prop
  | offset, [], size => offset ≤ size
  | offset, token :: rest, size =>
    offset ≤ token.start ∧ token.start < token.stop ∧ Spaced token.stop rest size

namespace Spaced

variable {offset size : Nat} {tokens : List Token} (spaced : Spaced offset tokens size)

include spaced

theorem mono {earlier : Nat} (le : earlier ≤ offset) : Spaced earlier tokens size := by
  cases tokens with
  | nil => exact Nat.le_trans le spaced
  | cons token rest => exact ⟨Nat.le_trans le spaced.1, spaced.2⟩

theorem le_size : offset ≤ size := by
  induction tokens generalizing offset with
  | nil => exact spaced
  | cons token rest ih => exact spaced.1.trans (spaced.2.1.le.trans (ih spaced.2.2))

omit spaced in
theorem split {first second : List Token} (spaced : Spaced offset (first ++ second) size) :
    ∃ middle, Spaced offset first middle ∧ Spaced middle second size := by
  induction first generalizing offset with
  | nil => exact ⟨offset, le_refl offset, spaced⟩
  | cons token rest ih =>
    obtain ⟨middle, before, behind⟩ := ih spaced.2.2
    exact ⟨middle, ⟨spaced.1, spaced.2.1, before⟩, behind⟩

theorem widen {wider : Nat} (le : size ≤ wider) : Spaced offset tokens wider := by
  induction tokens generalizing offset with
  | nil => exact Nat.le_trans spaced le
  | cons token rest ih => exact ⟨spaced.1, spaced.2.1, ih spaced.2.2⟩

theorem start_le (i : Fin tokens.length) : offset ≤ (tokens.get i).start := by
  induction tokens generalizing offset with
  | nil => exact i.elim0
  | cons token rest ih =>
    refine i.cases spaced.1 fun j => ?_
    exact spaced.1.trans (spaced.2.1.le.trans (ih spaced.2.2 j))

theorem start_lt_stop {i j : Fin tokens.length} (le : i ≤ j) :
    (tokens.get i).start < (tokens.get j).stop ∧ (tokens.get j).stop ≤ size := by
  induction tokens generalizing offset with
  | nil => exact i.elim0
  | cons token rest ih =>
    cases j using Fin.cases with
    | zero =>
      obtain rfl : i = 0 := Fin.le_zero_iff.mp le
      exact ⟨spaced.2.1, spaced.2.2.le_size⟩
    | succ j =>
      cases i using Fin.cases with
      | zero =>
        have behind := (spaced.2.2.start_le j).trans_lt (ih spaced.2.2 le_rfl).1
        exact ⟨spaced.2.1.trans behind, (ih spaced.2.2 (i := j) le_rfl).2⟩
      | succ i => exact ih spaced.2.2 (Fin.succ_le_succ_iff.mp le)

theorem start_of_mem (member : token ∈ tokens) :
    offset ≤ token.start ∧ token.start < token.stop := by
  obtain ⟨i, rfl⟩ := List.mem_iff_get.mp member
  exact ⟨spaced.start_le i, (spaced.start_lt_stop le_rfl).1⟩

theorem pairwise : tokens.Pairwise fun first second => first.stop ≤ second.start := by
  induction tokens generalizing offset with
  | nil => exact .nil
  | cons first rest ih =>
    exact .cons (fun token member => (spaced.2.2.start_of_mem member).1) (ih spaced.2.2)

end Spaced

theorem Span.slice_append (before inside after : List Char) (starts : start = before.length)
    (stops : stop = start + inside.length) :
    Span.slice ⟨start, stop⟩ (before ++ (inside ++ after)) = inside := by
  subst starts stops
  simp [Span.slice, List.take_append]

namespace Scan

theorem isBarrier_piece {lexeme : Lexeme} {piece : Piece} (barrier : lexeme.isBarrier)
    (text : lexeme.text = String.ofList piece.text) : piece.IsBarrier := by
  simp only [Lexeme.isBarrier, Lexeme.isPunctOf, Bool.and_eq_true, List.contains_eq_mem,
    decide_eq_true_eq] at barrier
  have list : piece.text = lexeme.text.toList := by rw [text, String.toList_ofList]
  have cases : lexeme.text = ")" ∨ lexeme.text = "]" ∨ lexeme.text = "\x7d" ∨
      lexeme.text = ";" := by
    simpa using barrier.2
  obtain same | same | same | same := cases <;> rw [same] at list <;>
    exact ⟨_, list, by decide⟩

theorem place_spaced (cuts : Cuts pieces ahead) {offset size : Nat}
    (fits : offset + (joined pieces).length ≤ size) : Spaced offset (place offset pieces) size := by
  induction pieces generalizing offset with
  | nil => simpa [place, Spaced] using fits
  | cons piece rest ih =>
    obtain ⟨⟨c, more, text, -⟩, cuts⟩ := cuts
    have nonempty : 0 < piece.text.length := by simp [text]
    simp only [joined_cons, List.length_append] at fits
    have spaced : Spaced (offset + piece.text.length) _ size := ih cuts (by omega)
    simp only [place]
    split
    · exact spaced.mono (by omega)
    · exact ⟨Nat.le_refl _, by simp only; omega, spaced⟩

theorem place_isScanned (cuts : Cuts pieces ahead) (offset : Nat) :
    ∀ token ∈ place offset pieces, token.toLexeme.IsScanned := by
  induction pieces generalizing offset with
  | nil => simp [place]
  | cons piece rest ih =>
    obtain ⟨⟨c, more, text, isCut⟩, cuts⟩ := cuts
    simp only [place]
    split
    · exact ih cuts _
    · rename_i kind isToken
      refine List.forall_mem_cons.mpr ⟨fun word => ?_, ih cuts _⟩
      obtain rfl : kind = .ident := word
      rw [isToken] at isCut
      simp [text, cut_ident isCut]

end Scan

theorem tokenize_eq_ok :
    tokenize text = .ok tokens ↔
      ∃ pieces, Scan.joined pieces = text ∧ Scan.Cuts pieces [] ∧ Scan.place 0 pieces = tokens := by
  unfold tokenize
  cases found : Scan.pieces text with
  | error stopped =>
    simp only [reduceCtorEq, false_iff, not_exists, not_and]
    intro pieces same cuts
    rw [Scan.pieces_eq_ok.mpr ⟨same, cuts⟩] at found
    cases found
  | ok pieces =>
    obtain ⟨same, cuts⟩ := Scan.pieces_eq_ok.mp found
    simp only [Except.ok.injEq]
    constructor
    · rintro rfl
      exact ⟨pieces, same, cuts, rfl⟩
    · rintro ⟨others, same', cuts', rfl⟩
      rw [Scan.pieces_eq_ok.mpr ⟨same', cuts'⟩] at found
      cases found
      rfl

theorem spaced_of_tokenize (h : tokenize text = .ok tokens) : Spaced 0 tokens text.length := by
  obtain ⟨pieces, rfl, cuts, rfl⟩ := tokenize_eq_ok.mp h
  exact Scan.place_spaced cuts (by simp)

theorem isScanned_of_tokenize (h : tokenize text = .ok tokens) :
    ∀ token ∈ tokens, token.toLexeme.IsScanned := by
  obtain ⟨pieces, rfl, cuts, rfl⟩ := tokenize_eq_ok.mp h
  exact Scan.place_isScanned cuts 0

/-- A token is as wide as its text. -/
theorem stop_of_tokenize (h : tokenize text = .ok tokens) (member : token ∈ tokens) :
    token.stop = token.start + token.text.toList.length := by
  obtain ⟨pieces, -, -, rfl⟩ := tokenize_eq_ok.mp h
  obtain ⟨before, after, same⟩ := List.append_of_mem member
  obtain ⟨_, piece, _, _, _, _, text, _, stop, _⟩ := Scan.place_eq_append_cons same
  rw [stop, text, String.toList_ofList]

/-- The tokens between a token and a barrier are those of the text between them. -/
theorem tokenize_between (barrier : closer.isBarrier)
    (h : tokenize text = .ok (before ++ opener :: (inside ++ closer :: after))) :
    ∃ found, tokenize (Span.slice ⟨opener.stop, closer.start⟩ text) = .ok found ∧
      inside = found.map (·.shift opener.stop) := by
  obtain ⟨pieces, rfl, cuts, placed⟩ := tokenize_eq_ok.mp h
  obtain ⟨first, opening, rest, rfl, -, -, -, start, stop, placed⟩ :=
    Scan.place_eq_append_cons placed
  obtain ⟨middle, closing, last, rfl, rfl, -, closed, start', -, -⟩ :=
    Scan.place_eq_append_cons placed
  have ends : closing.IsBarrier := Scan.isBarrier_piece barrier closed
  have slice : Span.slice ⟨opener.stop, closer.start⟩
      (Scan.joined (first ++ opening :: (middle ++ closing :: last))) = Scan.joined middle := by
    have same : Scan.joined (first ++ opening :: (middle ++ closing :: last)) =
        (Scan.joined first ++ opening.text) ++
          (Scan.joined middle ++ Scan.joined (closing :: last)) := by
      simp
    rw [same]
    exact Span.slice_append _ _ _ (by simp [start, stop]) start'
  have scanned : Scan.Cuts middle [] := by
    have tail : Scan.Cuts (middle ++ closing :: last) [] := (Scan.cuts_append.mp cuts).2.2
    rw [List.append_cons, Scan.cuts_append] at tail
    exact Scan.cuts_before_barrier ends tail.1
  refine ⟨Scan.place 0 middle, ?_, ?_⟩
  · rw [slice]
    exact tokenize_eq_ok.mpr ⟨middle, rfl, scanned, rfl⟩
  · rw [← Scan.place_shift, Nat.zero_add]

/-- The text from a token through a barrier has the tokens from the one to the other, each moved to
its place. -/
theorem tokenize_through {first : Token} (barrier : last.isBarrier)
    (h : tokenize text = .ok (before ++ first :: (inside ++ last :: after))) :
    ∃ found, tokenize (Span.slice ⟨first.start, last.stop⟩ text) = .ok found ∧
      first :: (inside ++ [last]) = found.map (·.shift first.start) := by
  obtain ⟨pieces, rfl, cuts, placed⟩ := tokenize_eq_ok.mp h
  obtain ⟨front, opening, rest, rfl, -, kind, opens, start, stop, placed⟩ :=
    Scan.place_eq_append_cons placed
  obtain ⟨middle, closing, behind, rfl, placedMiddle, kind', closes, start', stop', -⟩ :=
    Scan.place_eq_append_cons placed
  rw [Nat.zero_add] at start
  have scanned : Scan.Cuts (opening :: middle ++ [closing]) [] := by
    have fromFirst := (Scan.cuts_append.mp cuts).2
    rw [← List.cons_append, List.append_cons, Scan.cuts_append] at fromFirst
    exact Scan.cuts_through_barrier (Scan.isBarrier_piece barrier closes) fromFirst.1 []
  have slice : Span.slice ⟨first.start, last.stop⟩
      (Scan.joined (front ++ opening :: (middle ++ closing :: behind))) =
        Scan.joined (opening :: middle ++ [closing]) := by
    have split : Scan.joined (front ++ opening :: (middle ++ closing :: behind)) =
        Scan.joined front ++ (Scan.joined (opening :: middle ++ [closing]) ++ Scan.joined behind) := by
      simp
    rw [split, Span.slice_append _ _ _ start]
    simp only [List.cons_append, Scan.joined_cons, Scan.joined_append, Scan.joined_nil,
      List.length_append, List.append_nil]
    omega
  refine ⟨Scan.place 0 (opening :: middle ++ [closing]), ?_, ?_⟩
  · rw [slice]
    exact tokenize_eq_ok.mpr ⟨_, rfl, scanned, rfl⟩
  · rw [← Scan.place_shift, Nat.zero_add, List.cons_append]
    simp only [Scan.place, kind, Scan.place_append, ← stop, placedMiddle, kind', ← start', ← stop',
      ← opens, ← closes]

namespace Scan

/-- Pieces whose last token is a barrier are cut in front of any other text, if what followed them
was no end of a line. -/
theorem cuts_of_last_barrier {c : Char} {offset : Nat} (line : c ≠ '\n')
    (cuts : Cuts pieces (c :: ahead)) (placed : place offset pieces = before ++ [last])
    (barrier : last.isBarrier) (other : List Char) : Cuts pieces other := by
  obtain ⟨first, piece, gaps, rfl, -, -, text, -, -, none⟩ := place_eq_append_cons placed
  rw [List.append_cons, cuts_append] at cuts ⊢
  exact ⟨cuts_through_barrier (isBarrier_piece barrier text) cuts.1 _,
    cuts_gaps cuts.2 (place_gaps none) fun ends => absurd (ends c rfl) line⟩

end Scan

/-- The pieces of the last of some tokens, from where they begin; none if there are none. -/
theorem Scan.place_eq_append (placed : place 0 pieces = before ++ kept)
    (stops : stop = (joined pieces).length)
    (starts : (kept.head?.map (·.start)).getD stop = start) :
    ∃ first second, pieces = first ++ second ∧ start = (joined first).length ∧
      place start second = kept ∧ (kept = [] → second = []) := by
  cases kept with
  | nil =>
    obtain rfl : stop = start := starts
    exact ⟨pieces, [], by simp, stops, rfl, fun _ => rfl⟩
  | cons token kept =>
    obtain rfl : token.start = start := starts
    obtain ⟨first, piece, rest, rfl, -, kind, text, start, stop, placed⟩ :=
      place_eq_append_cons placed
    refine ⟨first, piece :: rest, rfl, by simpa using start, ?_, by simp⟩
    simp only [place, kind, ← stop, placed, ← text]

/-- Cutting out a stretch between two tokens leaves the other tokens of a text: those before the
stretch, which end with a barrier, and those behind it up to a barrier. -/
theorem tokenize_cut {rest : List Token} (h : tokenize text = .ok
      (before ++ (kept ++ opener :: (inside ++ closer :: (rest ++ last :: after)))))
    (starts : (kept.head?.map (·.start)).getD opener.start = start)
    (first : kept = [] ∨ ∃ init barrier, kept = init ++ [barrier] ∧ barrier.isBarrier)
    (barrier : last.isBarrier) :
    ∃ kept' rest', tokenize (Span.slice ⟨start, opener.start⟩ text ++
        Span.slice ⟨closer.stop, last.stop⟩ text) = .ok (kept' ++ rest') ∧
      kept = kept'.map (·.shift start) ∧
      rest ++ [last] = rest'.map (·.shift (start + (closer.stop - opener.start))) := by
  obtain ⟨pieces, rfl, cuts, placed⟩ := tokenize_eq_ok.mp h
  rw [← List.append_assoc] at placed
  obtain ⟨front, opening, behind, rfl, placed, isToken, -, opens, opens', placed'⟩ :=
    Scan.place_eq_append_cons placed
  rw [Nat.zero_add] at opens
  obtain ⟨outer, front, rfl, startsAt, placedFront, empty⟩ :=
    Scan.place_eq_append placed opens starts
  obtain ⟨hidden, closing, behind, rfl, -, -, -, closes, closes', placed'⟩ :=
    Scan.place_eq_append_cons placed'
  obtain ⟨middle, ending, tail, rfl, rfl, kind, text, lastStart, lastStop, -⟩ :=
    Scan.place_eq_append_cons placed'
  simp only [Scan.joined_append, List.length_append] at opens
  rw [List.append_assoc] at cuts ⊢
  have behindOuter := (Scan.cuts_append.mp cuts).2
  have behindFront := (Scan.cuts_append.mp behindOuter).2
  have cutFront : Scan.Cuts front (Scan.joined (middle ++ [ending])) := by
    obtain rfl | ⟨init, mark, rfl, isBarrier⟩ := first
    · rw [empty rfl]
      trivial
    · obtain ⟨⟨c, more, opened, isCut⟩, -⟩ := behindFront
      have before := (Scan.cuts_append.mp behindOuter).1
      simp only [Scan.joined_cons, opened, List.cons_append] at before
      refine Scan.cuts_of_last_barrier ?_ before placedFront isBarrier _
      rintro rfl
      have line : ∀ rest, Scan.cut '\n' rest = .ok ⟨none, 0⟩ := fun _ => rfl
      rw [isToken, line] at isCut
      cases isCut
  have cutRest : Scan.Cuts (middle ++ [ending]) [] := by
    have behindHidden := (Scan.cuts_append.mp behindFront.2).2.2
    rw [List.append_cons, Scan.cuts_append] at behindHidden
    exact Scan.cuts_through_barrier (Scan.isBarrier_piece barrier text) behindHidden.1 []
  have slices : Span.slice ⟨start, opener.start⟩ (Scan.joined (outer ++ (front ++
        opening :: (hidden ++ closing :: (middle ++ ending :: tail))))) ++
      Span.slice ⟨closer.stop, last.stop⟩ (Scan.joined (outer ++ (front ++
        opening :: (hidden ++ closing :: (middle ++ ending :: tail))))) =
      Scan.joined (front ++ (middle ++ [ending])) := by
    have kept : Scan.joined (outer ++ (front ++
          opening :: (hidden ++ closing :: (middle ++ ending :: tail)))) =
        Scan.joined outer ++ (Scan.joined front ++ Scan.joined
          (opening :: (hidden ++ closing :: (middle ++ ending :: tail)))) := by
      simp
    have rest : Scan.joined (outer ++ (front ++
          opening :: (hidden ++ closing :: (middle ++ ending :: tail)))) =
        Scan.joined (outer ++ (front ++ opening :: (hidden ++ [closing]))) ++
          (Scan.joined (middle ++ [ending]) ++ Scan.joined tail) := by
      simp
    rw [kept, Span.slice_append _ _ _ startsAt (by omega), ← kept, rest,
      Span.slice_append _ _ _ (by simp; omega) (by simp; omega), ← Scan.joined_append]
  refine ⟨Scan.place 0 front, Scan.place (Scan.joined front).length (middle ++ [ending]),
    ?_, ?_, ?_⟩
  · rw [slices]
    refine tokenize_eq_ok.mpr ⟨_, rfl, Scan.cuts_append.mpr ⟨?_, cutRest⟩, ?_⟩
    · simpa using cutFront
    · rw [Scan.place_append, Nat.zero_add]
  · rw [← placedFront, ← Scan.place_shift, Nat.zero_add]
  · have moved : (Scan.joined front).length + (start + (closer.stop - opener.start)) =
        closer.stop := by
      omega
    rw [← Scan.place_shift, moved, Scan.place_append]
    simp only [Scan.place, kind, ← lastStart, ← lastStop, ← text]

/-- Nothing of a text that can be tokenized goes on behind the end of its last line: two such texts
on lines of their own have the tokens of the first and those of the second, moved behind it. -/
theorem tokenize_lines {first second : List Char} {others : List Token}
    (h : tokenize first = .ok tokens) (h' : tokenize second = .ok others) :
    tokenize (first ++ '\n' :: second) =
      .ok (tokens ++ others.map (·.shift (first.length + 1))) := by
  obtain ⟨pieces, rfl, cuts, rfl⟩ := tokenize_eq_ok.mp h
  obtain ⟨pieces', rfl, cuts', rfl⟩ := tokenize_eq_ok.mp h'
  have line : Scan.Cuts (⟨none, ['\n']⟩ :: pieces') [] :=
    ⟨⟨'\n', [], rfl, Scan.cut_blank (by decide) _⟩, cuts'⟩
  refine tokenize_eq_ok.mpr ⟨pieces ++ ⟨none, ['\n']⟩ :: pieces', by simp,
    Scan.cuts_append.mpr ⟨Scan.cuts_newline cuts _, line⟩, ?_⟩
  rw [Scan.place_append, ← Scan.place_shift, Nat.zero_add, Nat.zero_add]
  rfl

/-- A lifetime and a line comment end with their line, and a character begins the next one. -/
theorem tokenize_lines_lifetime :
    tokenize "/**/ 'a // 'b\n'c'".toList =
      .ok [⟨⟨.lifetime, "'a"⟩, 5, 7⟩, ⟨⟨.char, "'c'"⟩, 14, 17⟩] := by
  have line : tokenize "/**/ 'a // 'b".toList = .ok [⟨⟨.lifetime, "'a"⟩, 5, 7⟩] := rfl
  have next : tokenize "'c'".toList = .ok [⟨⟨.char, "'c'"⟩, 0, 3⟩] := rfl
  exact tokenize_lines line next

end ActorGlue
