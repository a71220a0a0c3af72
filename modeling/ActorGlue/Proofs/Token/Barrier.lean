import ActorGlue.Token.Scan
import Mathlib

/-!
# Pieces up to a barrier

Closing delimiters and semicolons are barriers: no piece of a text that ends before one of them
depends on what stands behind it. So a stretch of text that ends at a barrier is cut into the same
pieces wherever it stands. A token does not even need a barrier: nothing in the rules for words,
numerals, literals and marks needs the text behind a token to get as far as its end.
-/

namespace ActorGlue.Scan

variable {text rest : List Char} {c : Char}

/-- The character always is a token of its own. -/
def isBarrier (c : Char) : Bool :=
  c = ')' || c = ']' || c = '}' || c = ';'

theorem isBarrier_cases (barrier : isBarrier c) : c = ')' ∨ c = ']' ∨ c = '}' ∨ c = ';' := by
  simpa [isBarrier, or_assoc] using barrier

/-- No word, numeral or literal goes on with the character. -/
def isSeal (c : Char) : Bool :=
  !isWordPart c && c ∉ ['#', '"', '\'', '+', '-', '/', '*']

theorem isSeal_of_barrier (barrier : isBarrier c) : isSeal c := by
  obtain rfl | rfl | rfl | rfl := isBarrier_cases barrier <;> decide

/-- Nothing follows that a word, numeral or literal could go on with. -/
structure Ends (ahead : List Char) : Prop where
  isSeal : ∀ c ∈ ahead.head?, isSeal c
  point : ∀ c rest, ahead = '.' :: c :: rest → c.isDigit = false

theorem ends_nil : Ends [] :=
  ⟨by simp, by simp⟩

theorem ends_of_seal (ends : isSeal c) (other : c ≠ '.') (ahead : List Char) : Ends (c :: ahead) :=
  ⟨by simpa using ends, fun d rest same => absurd (List.cons.inj same).1 other⟩

/-- Nothing follows, or a barrier does. -/
def Closes (ahead : List Char) : Prop :=
  ∀ c ∈ ahead.head?, isBarrier c

theorem closes_nil : Closes [] := by
  simp [Closes]

theorem closes_cons (barrier : isBarrier c) (ahead : List Char) : Closes (c :: ahead) := by
  simpa [Closes] using barrier

theorem Closes.ends {ahead : List Char} (closes : Closes ahead) : Ends ahead := by
  cases ahead with
  | nil => exact ends_nil
  | cons c rest =>
    have barrier : isBarrier c := closes c rfl
    refine ends_of_seal (isSeal_of_barrier barrier) ?_ rest
    obtain rfl | rfl | rfl | rfl := isBarrier_cases barrier <;> decide

section Runs

variable {ahead : List Char}

theorem head?_append_ends (apart : isSeal c = false) (ends : Ends ahead) (text : List Char) :
    (text ++ ahead).head? = some c ↔ text.head? = some c := by
  cases text with
  | cons d rest => simp
  | nil =>
    cases ahead with
    | nil => rfl
    | cons d rest =>
      simp only [List.nil_append, List.head?_cons, Option.some.injEq, List.head?_nil,
        reduceCtorEq, iff_false]
      rintro rfl
      simp [ends.isSeal d rfl] at apart

/-- What begins a text and its end begins the text, or the end goes on with a character of it. -/
theorem prefix_append_cases {front : List Char} (before : front <+: text ++ ahead) :
    front <+: text ∨ text.length < front.length ∧ ∃ c ∈ ahead.head?, c ∈ front := by
  by_cases fits : front.length ≤ text.length
  · exact .inl (List.prefix_of_prefix_length_le before (List.prefix_append _ _) fits)
  · obtain ⟨more, rfl⟩ := List.prefix_of_prefix_length_le (List.prefix_append text ahead) before
      (by omega)
    obtain ⟨rest, rfl⟩ := (List.prefix_append_right_inj text).mp before
    cases more with
    | nil => simp at fits
    | cons c more => exact .inr ⟨by omega, c, rfl, by simp⟩

end Runs

section Bounds

/-! ## No piece is longer than the text -/
variable (text : List Char)

theorem takeWhile_length_le (holds : Char → Bool) (text : List Char) :
    (text.takeWhile holds).length ≤ text.length :=
  (List.takeWhile_prefix holds).length_le

theorem plainWordWidth_le : plainWordWidth text ≤ text.length := by
  unfold plainWordWidth
  split
  · simp
  · rename_i c rest
    have := takeWhile_length_le isWordPart rest
    split <;> simp only [List.length_cons] <;> omega

theorem wordWidth_le : wordWidth text ≤ text.length := by
  unfold wordWidth
  split
  · rename_i rest
    have := plainWordWidth_le rest
    have := plainWordWidth_le ('r' :: '#' :: rest)
    simp only [List.length_cons] at *
    split <;> omega
  · exact plainWordWidth_le text

theorem length_le_of_find? {marks : List (List Char)} {mark text : List Char}
    (found : marks.find? (fun mark => mark.isPrefixOf text) = some mark) :
    mark.length ≤ text.length := by
  have begins : mark.isPrefixOf text = true := by simpa using List.find?_some found
  exact (List.isPrefixOf_iff_prefix.mp begins).length_le

theorem suffixWidth_le : suffixWidth text ≤ text.length := by
  unfold suffixWidth
  split
  · rename_i found
    exact length_le_of_find? found
  · simp

theorem basedWidth?_le {text : List Char} {width : Nat} (h : basedWidth? text = some width) :
    width ≤ text.length := by
  unfold basedWidth? at h
  split at h
  · rename_i mark rest
    simp only [bind, Option.bind_eq_some_iff] at h
    obtain ⟨isDigit, _, h⟩ := h
    split at h <;> cases h
    have digits := takeWhile_length_le (fun c => isDigit c || c = '_') rest
    have suffix := suffixWidth_le (rest.drop (rest.takeWhile fun c => isDigit c || c = '_').length)
    simp only [List.length_drop] at suffix
    simp only [List.length_cons]
    omega
  · cases h

theorem fractionWidth_le : fractionWidth text ≤ text.length := by
  unfold fractionWidth
  split
  · rename_i c rest
    have := takeWhile_length_le isDigitOrBar rest
    split <;> simp only [List.length_cons] <;> omega
  · simp

theorem signWidth_le : signWidth text ≤ text.length := by
  unfold signWidth
  split
  · split <;> simp
  · simp

theorem exponentWidth_le : exponentWidth text ≤ text.length := by
  unfold exponentWidth
  split
  · rename_i c rest
    have sign := signWidth_le rest
    have digits := takeWhile_length_le isDigitOrBar (rest.drop (signWidth rest))
    simp only [List.length_drop] at digits
    dsimp only
    split <;> simp only [List.length_cons] <;> omega
  · simp

theorem markWidth_le : markWidth text ≤ text.length := by
  unfold markWidth
  split
  · rename_i found
    exact length_le_of_find? found
  · split
    · split <;> simp
    · simp

end Bounds

section Widths

/-! ## Widths that end within a text -/

variable {ahead other : List Char} {width next : List Char → Nat}

theorem drop_append_le {count : Nat} (fits : count ≤ text.length) :
    (text ++ ahead).drop count = text.drop count ++ ahead :=
  List.drop_append_of_le_length fits

theorem isWordPart_seal (c : Char) (ends : isSeal c) : isWordPart c = false := by
  simp only [isSeal, Bool.and_eq_true, Bool.not_eq_true'] at ends
  exact ends.1

theorem isWordStart_seal (c : Char) (ends : isSeal c) : isWordStart c = false := by
  have part := isWordPart_seal c ends
  simp only [isWordPart, Bool.or_eq_false_iff] at part
  exact part.1

theorem isDigit_seal (c : Char) (ends : isSeal c) : c.isDigit = false := by
  have part := isWordPart_seal c ends
  simp only [isWordPart, Bool.or_eq_false_iff] at part
  exact part.2

theorem isDigitOrBar_seal (c : Char) (ends : isSeal c) : isDigitOrBar c = false := by
  have start := isWordStart_seal c ends
  simp only [isWordStart, Bool.or_eq_false_iff] at start
  rw [isDigitOrBar, isDigit_seal c ends, start.2]
  rfl

/-- What follows a text matters to the width of what begins it only if that goes on into it, and a
text that ends everything is not gone on into. -/
structure Local (width : List Char → Nat) : Prop where
  le : ∀ text, width text ≤ text.length
  settled : ∀ text ahead, width (text ++ ahead) = width text ∨
    text.length < width (text ++ ahead) ∧ ¬ Ends ahead

namespace Local

theorem retarget (measure : Local width) (text : List Char)
    (fits : width (text ++ ahead) ≤ text.length) (ends : Ends other) :
    width (text ++ other) = width (text ++ ahead) := by
  have same := (measure.settled text ahead).resolve_right fun goes => by omega
  have same' := (measure.settled text other).resolve_right fun goes => goes.2 ends
  rw [same, same']

/-- Where nothing is, something begins only in a text that does not end it. -/
theorem settled_nil (zero : width [] = 0) (ended : Ends ahead → width ahead = 0) :
    width ([] ++ ahead) = width [] ∨ ([] : List Char).length < width ([] ++ ahead) ∧ ¬ Ends ahead := by
  rw [List.nil_append, zero, List.length_nil]
  by_cases none : width ahead = 0
  · exact .inl none
  · exact .inr ⟨by omega, fun ends => none (ended ends)⟩

/-- One after the other. -/
theorem seq (first : Local width) (second : Local next) :
    Local fun text => width text + next (text.drop (width text)) where
  le text := by
    have le := first.le text
    have le' := second.le (text.drop (width text))
    rw [List.length_drop] at le'
    omega
  settled text ahead := by
    obtain same | ⟨longer, goes⟩ := first.settled text ahead
    · have le := first.le text
      simp only [same, drop_append_le le]
      obtain same' | ⟨longer, goes⟩ := second.settled (text.drop (width text)) ahead
      · exact .inl (by rw [same'])
      · rw [List.length_drop] at longer
        exact .inr ⟨by omega, goes⟩
    · exact .inr ⟨by omega, goes⟩

end Local

/-- A run of characters that are no seals. -/
theorem takeWhile_local {holds : Char → Bool} (apart : ∀ c, isSeal c → holds c = false) :
    Local fun text => (text.takeWhile holds).length where
  le := takeWhile_length_le holds
  settled text ahead := by
    simp only [List.takeWhile_append]
    split_ifs with all
    · cases ahead with
      | nil => exact .inl (by simpa using all.symm)
      | cons c rest =>
        by_cases goes : holds c
        · refine .inr ⟨by simp [goes], fun ends => ?_⟩
          simp [apart c (ends.isSeal c rfl)] at goes
        · exact .inl (by simpa [goes] using all.symm)
    · exact .inl rfl

theorem plainWordWidth_local : Local plainWordWidth where
  le := plainWordWidth_le
  settled text ahead := by
    cases text with
    | nil =>
      refine Local.settled_nil rfl fun ends => ?_
      cases ahead with
      | nil => rfl
      | cons c rest => simp [plainWordWidth, isWordStart_seal c (ends.isSeal c rfl)]
    | cons c rest =>
      simp only [List.cons_append, plainWordWidth, List.length_cons]
      split_ifs
      · obtain same | ⟨longer, goes⟩ := (takeWhile_local isWordPart_seal).settled rest ahead
        · exact .inl (by rw [same])
        · exact .inr ⟨by omega, goes⟩
      · exact .inl rfl

theorem wordWidth_plain (plain : ∀ rest, text ≠ 'r' :: '#' :: rest) :
    wordWidth text = plainWordWidth text := by
  unfold wordWidth
  split
  · exact absurd rfl (plain _)
  · rfl

theorem isWordStart_of_wordWidth (word : wordWidth (c :: rest) ≠ 0) : isWordStart c := by
  by_contra other
  have plain : plainWordWidth (c :: rest) = 0 := by simp [plainWordWidth, other]
  unfold wordWidth at word
  split at word
  · rename_i same
    obtain ⟨rfl, -⟩ := List.cons.inj same
    exact other (by decide)
  · exact word plain

theorem wordWidth_local : Local wordWidth where
  le := wordWidth_le
  settled text ahead := by
    have plain (text : List Char) (other : ∀ rest, text ++ ahead ≠ 'r' :: '#' :: rest)
        (other' : ∀ rest, text ≠ 'r' :: '#' :: rest) : wordWidth (text ++ ahead) = wordWidth text ∨
          text.length < wordWidth (text ++ ahead) ∧ ¬ Ends ahead := by
      rw [wordWidth_plain other, wordWidth_plain other']
      exact plainWordWidth_local.settled text ahead
    rcases text with _ | ⟨c, _ | ⟨d, rest⟩⟩
    · refine Local.settled_nil rfl fun ends => ?_
      cases ahead with
      | nil => rfl
      | cons c rest =>
        by_contra word
        have start := isWordStart_of_wordWidth word
        simp [isWordStart_seal c (ends.isSeal c rfl)] at start
    · by_cases raw : ∃ rest, [c] ++ ahead = 'r' :: '#' :: rest
      · -- A raw word does not end right behind its first letter.
        obtain ⟨rest, same⟩ := raw
        obtain ⟨rfl, rfl⟩ := List.cons.inj same
        by_cases none : plainWordWidth rest = 0
        · have short : wordWidth ('r' :: '#' :: rest) = 1 := if_pos none
          exact .inl short
        · refine .inr ⟨?_, fun ends => absurd (ends.isSeal _ rfl) (by decide)⟩
          simp only [List.cons_append, List.nil_append, wordWidth, none, if_false,
            List.length_singleton]
          omega
      · exact plain [c] (not_exists.mp raw) (by simp)
    · by_cases raw : c = 'r' ∧ d = '#'
      · obtain ⟨rfl, rfl⟩ := raw
        simp only [List.cons_append, wordWidth, List.length_cons]
        obtain same | ⟨longer, goes⟩ := plainWordWidth_local.settled rest ahead
        · exact .inl (by rw [same]; rfl)
        · rw [if_neg (by omega)]
          exact .inr ⟨by omega, goes⟩
      · exact plain (c :: d :: rest) (by grind) (by grind)

/-- The first mark that is found stays the first one, or goes on with what follows. -/
theorem find?_mark_cases (marks : List (List Char)) (text ahead : List Char) :
    marks.find? (fun mark => mark.isPrefixOf (text ++ ahead)) =
      marks.find? (fun mark => mark.isPrefixOf text) ∨
    ∃ mark ∈ marks, marks.find? (fun mark => mark.isPrefixOf (text ++ ahead)) = some mark ∧
      text.length < mark.length ∧ ∃ c ∈ ahead.head?, c ∈ mark := by
  induction marks with
  | nil => exact .inl rfl
  | cons mark marks ih =>
    simp only [List.find?_cons]
    by_cases begins : mark <+: text ++ ahead
    · simp only [List.isPrefixOf_iff_prefix.mpr begins]
      obtain here | goes := prefix_append_cases begins
      · exact .inl (by simp only [List.isPrefixOf_iff_prefix.mpr here])
      · exact .inr ⟨mark, List.mem_cons_self, rfl, goes⟩
    · have apart (text : List Char) (other : ¬ mark <+: text) : mark.isPrefixOf text = false := by
        rwa [← Bool.not_eq_true, List.isPrefixOf_iff_prefix]
      simp only [apart _ begins,
        apart text fun here => begins (here.trans (List.prefix_append _ _))]
      exact ih.imp_right fun ⟨mark, member, found⟩ => ⟨mark, List.mem_cons_of_mem _ member, found⟩

theorem suffixWidth_local : Local suffixWidth where
  le := suffixWidth_le
  settled text ahead := by
    have words : Text.intSuffixes.all (·.all (!isSeal ·)) := by decide
    unfold suffixWidth
    obtain same | ⟨suffix, member, found, longer, c, head, among⟩ :=
      find?_mark_cases Text.intSuffixes text ahead
    · exact .inl (by rw [same])
    · rw [found]
      refine .inr ⟨longer, fun ends => ?_⟩
      have word := List.all_eq_true.mp (List.all_eq_true.mp words suffix member) c among
      simp [ends.isSeal c head] at word

theorem fractionWidth_of_ne (other : c ≠ '.') (rest : List Char) :
    fractionWidth (c :: rest) = 0 := by
  unfold fractionWidth
  split
  · rename_i same
    exact absurd (List.cons.inj same).1 other
  · rfl

theorem fractionWidth_local : Local fractionWidth where
  le := fractionWidth_le
  settled text ahead := by
    rcases text with _ | ⟨c, rest⟩
    · refine Local.settled_nil rfl fun ends => ?_
      unfold fractionWidth
      split
      · simp [ends.point _ _ rfl]
      · rfl
    by_cases point : c = '.'
    · subst point
      rcases rest with _ | ⟨d, rest⟩
      · rcases ahead with _ | ⟨d, rest⟩
        · exact .inl rfl
        simp only [List.cons_append, List.nil_append, fractionWidth, List.length_singleton]
        split_ifs with digit
        · refine .inr ⟨by omega, fun ends => ?_⟩
          simp [isDigit_seal d (ends.isSeal d rfl)] at digit
        · exact .inl rfl
      · simp only [List.cons_append, fractionWidth, List.length_cons]
        split_ifs
        · obtain same | ⟨longer, goes⟩ := (takeWhile_local isDigitOrBar_seal).settled rest ahead
          · exact .inl (by rw [same])
          · exact .inr ⟨by omega, goes⟩
        · exact .inl rfl
    · rw [List.cons_append, fractionWidth_of_ne point, fractionWidth_of_ne point]
      exact .inl rfl

theorem signWidth_le_one (text : List Char) : signWidth text ≤ 1 := by
  cases text with
  | nil => exact Nat.zero_le 1
  | cons c rest =>
    rw [signWidth]
    split <;> omega

theorem signWidth_local : Local signWidth where
  le := signWidth_le
  settled text ahead := by
    cases text with
    | cons c rest => exact .inl rfl
    | nil =>
      refine Local.settled_nil rfl fun ends => ?_
      cases ahead with
      | nil => rfl
      | cons c rest =>
        have other : ¬ (c = '+' ∨ c = '-') := by
          rintro (rfl | rfl) <;> exact absurd (ends.isSeal _ rfl) (by decide)
        simp [signWidth, not_or.mp other]

theorem exponentWidth_local : Local exponentWidth where
  le := exponentWidth_le
  settled text ahead := by
    cases text with
    | nil =>
      refine Local.settled_nil rfl fun ends => ?_
      cases ahead with
      | nil => rfl
      | cons c rest =>
        have other : ¬ (c = 'e' ∨ c = 'E') := by
          rintro (rfl | rfl) <;> exact absurd (ends.isSeal _ rfl) (by decide)
        simp [exponentWidth, not_or.mp other]
    | cons c rest =>
      simp only [List.cons_append, exponentWidth, List.length_cons]
      cases (decide (c = 'e') || decide (c = 'E')) with
      | false => exact .inl rfl
      | true =>
        simp only [Bool.true_and, decide_eq_true_eq]
        obtain same | ⟨longer, goes⟩ := signWidth_local.settled rest ahead
        · rw [same, drop_append_le (signWidth_le rest)]
          obtain same' | ⟨longer, goes⟩ :=
            (takeWhile_local isDigitOrBar_seal).settled (rest.drop (signWidth rest)) ahead
          · exact .inl (by rw [same'])
          · rw [List.length_drop] at longer
            rw [if_pos (by omega)]
            exact .inr ⟨by omega, goes⟩
        · by_cases none : (((rest ++ ahead).drop (signWidth (rest ++ ahead))).takeWhile
              isDigitOrBar).length = 0
          · have narrow := signWidth_le_one (rest ++ ahead)
            obtain rfl : rest = [] := List.length_eq_zero_iff.mp (by omega)
            rw [if_neg (by simpa using none)]
            exact .inl rfl
          · rw [if_pos none]
            exact .inr ⟨by omega, goes⟩

theorem decimalWidth_local : Local decimalWidth :=
  (((takeWhile_local isDigitOrBar_seal).seq fractionWidth_local).seq exponentWidth_local).seq
    plainWordWidth_local

/-- The digits of a based numeral are word characters. -/
theorem isWordPart_of_basedDigit {mark : Char} {isDigit : Char → Bool}
    (based : basedDigit mark = some isDigit) (digit : isDigit c) : isWordPart c := by
  unfold basedDigit at based
  split_ifs at based with hex octal binary <;> cases based <;>
    simp only [Bool.or_eq_true, Bool.and_eq_true, decide_eq_true_eq, Char.le_def] at digit
  · simp only [isWordPart, isWordStart, Char.isAlpha, Char.isUpper, Char.isLower, Char.isDigit,
      Bool.or_eq_true, Bool.and_eq_true, decide_eq_true_eq] at digit ⊢
    grind
  · simp only [isWordPart, Char.isDigit, Bool.or_eq_true, Bool.and_eq_true, decide_eq_true_eq]
    grind
  · obtain rfl | rfl := digit <;> decide

theorem basedDigit_seal {mark : Char} {isDigit : Char → Bool}
    (based : basedDigit mark = some isDigit) (c : Char) (ends : isSeal c) :
    (isDigit c || decide (c = '_')) = false := by
  have part := isWordPart_seal c ends
  rw [Bool.or_eq_false_iff]
  constructor
  · by_contra digit
    rw [isWordPart_of_basedDigit based (by simpa using digit)] at part
    cases part
  · rw [decide_eq_false_iff_not]
    rintro rfl
    exact absurd part (by decide)

theorem basedDigit_mark {mark : Char} (ends : isSeal mark) : basedDigit mark = none := by
  unfold basedDigit
  split_ifs with hex octal binary
  · subst hex
    exact absurd ends (by decide)
  · subst octal
    exact absurd ends (by decide)
  · subst binary
    exact absurd ends (by decide)
  · rfl

theorem basedWidth?_of_ne (other : c ≠ '0') (rest : List Char) :
    basedWidth? (c :: rest) = none := by
  unfold basedWidth?
  split
  · rename_i same
    exact absurd (List.cons.inj same).1 other
  · rfl

theorem basedWidth?_eq_some {count : Nat} (found : basedWidth? text = some count) : 3 ≤ count ∧
    ∃ mark rest isDigit, text = '0' :: mark :: rest ∧ basedDigit mark = some isDigit := by
  unfold basedWidth? at found
  split at found
  · rename_i mark rest
    simp only [Option.bind_eq_bind, Option.bind_eq_some_iff] at found
    obtain ⟨isDigit, based, found⟩ := found
    split_ifs at found
    cases found
    exact ⟨by omega, mark, rest, isDigit, rfl, based⟩
  · cases found

theorem basedWidth?_cases (text ahead : List Char) : basedWidth? (text ++ ahead) = basedWidth? text ∨
    ∃ count, basedWidth? (text ++ ahead) = some count ∧ text.length < count ∧ ¬ Ends ahead := by
  -- The mark of the base is the second character.
  have short (text : List Char) (none : basedWidth? text = none) (short : text.length < 2)
      (first : ∀ mark rest isDigit, text ++ ahead = '0' :: mark :: rest →
        basedDigit mark = some isDigit → ¬ Ends ahead) :
      basedWidth? (text ++ ahead) = basedWidth? text ∨
        ∃ count, basedWidth? (text ++ ahead) = some count ∧ text.length < count ∧ ¬ Ends ahead := by
    cases found : basedWidth? (text ++ ahead) with
    | none => exact .inl none.symm
    | some count =>
      obtain ⟨wide, mark, rest, isDigit, same, based⟩ := basedWidth?_eq_some found
      exact .inr ⟨count, rfl, by omega, first mark rest isDigit same based⟩
  rcases text with _ | ⟨c, _ | ⟨mark, rest⟩⟩
  · refine short [] rfl (by simp) fun mark rest isDigit same based ends => ?_
    obtain rfl : ahead = '0' :: mark :: rest := same
    exact absurd (ends.isSeal _ rfl) (by decide)
  · refine short [c] ?_ (by simp) fun mark rest isDigit same based ends => ?_
    · unfold basedWidth?
      split
      · rename_i same
        cases same
      · rfl
    · obtain ⟨-, rfl⟩ := List.cons.inj same
      rw [basedDigit_mark (ends.isSeal mark rfl)] at based
      cases based
  · by_cases zero : c = '0'
    · subst zero
      simp only [List.cons_append, basedWidth?, List.length_cons]
      cases based : basedDigit mark with
      | none => exact .inl rfl
      | some isDigit =>
        simp only [Option.bind_eq_bind, Option.bind_some]
        obtain same | ⟨longer, goes⟩ := (takeWhile_local (basedDigit_seal based)).settled rest ahead
        · rw [same, drop_append_le (takeWhile_length_le _ rest)]
          split_ifs
          · exact .inl rfl
          · obtain same' | ⟨longer, goes⟩ := suffixWidth_local.settled (rest.drop _) ahead
            · exact .inl (by rw [same'])
            · rw [List.length_drop] at longer
              exact .inr ⟨_, rfl, by omega, goes⟩
        · rw [if_neg (by omega)]
          exact .inr ⟨_, rfl, by omega, goes⟩
    · rw [List.cons_append, basedWidth?_of_ne zero, basedWidth?_of_ne zero]
      exact .inl rfl

theorem numeralWidth_local : Local numeralWidth where
  le text := by
    unfold numeralWidth
    cases h : basedWidth? text with
    | none => exact decimalWidth_local.le text
    | some width => exact basedWidth?_le h
  settled text ahead := by
    unfold numeralWidth
    obtain same | ⟨count, found, longer, goes⟩ := basedWidth?_cases text ahead
    · rw [same]
      cases basedWidth? text with
      | none => exact decimalWidth_local.settled text ahead
      | some count => exact .inl rfl
    · rw [found]
      exact .inr ⟨longer, goes⟩

/-- A mark of punctuation does not go on with the character. -/
def isBreak (c : Char) : Bool :=
  compoundMarks.all (!·.contains c)

theorem Closes.breaks (closes : Closes ahead) : ∀ c ∈ ahead.head?, isBreak c := by
  intro c head
  obtain rfl | rfl | rfl | rfl := isBarrier_cases (closes c head) <;> decide

theorem markWidth_cases (some : text ≠ []) (ahead : List Char) :
    markWidth (text ++ ahead) = markWidth text ∨
      text.length < markWidth (text ++ ahead) ∧ ∃ c ∈ ahead.head?, isBreak c = false := by
  obtain ⟨c, rest, rfl⟩ := List.exists_cons_of_ne_nil some
  unfold markWidth
  obtain same | ⟨mark, member, found, longer, d, head, among⟩ :=
    find?_mark_cases compoundMarks (c :: rest) ahead
  · rw [same]
    exact .inl rfl
  · rw [found]
    refine .inr ⟨longer, d, head, ?_⟩
    rw [isBreak, List.all_eq_false]
    exact ⟨mark, member, by simpa using among⟩

end Widths

section Closed

/-! ## A comment or literal that is closed stays closed -/

variable {ahead : List Char} {width : Nat}

/-- What is found to close a comment or a literal closes it whatever follows. -/
def Closing (least : Nat) (width? : List Char → Option Nat) : Prop :=
  ∀ text width, width? text = some width → least ≤ width ∧ width ≤ text.length ∧
    ∀ other, width? (text.take width ++ other) = some width

theorem Closing.retarget {least : Nat} {width? : List Char → Option Nat}
    (closing : Closing least width?) (h : width? (text ++ ahead) = some width)
    (fits : width ≤ text.length) (other : List Char) : width? (text ++ other) = some width := by
  obtain ⟨-, -, kept⟩ := closing _ _ h
  rw [List.take_append_of_le_length fits] at kept
  rw [← List.take_append_drop width text, List.append_assoc]
  exact kept _

theorem rawWidth?_closing (hashes : Nat) : Closing (1 + hashes) (rawWidth? hashes) := by
  intro text width found
  fun_induction rawWidth? hashes text generalizing width with
  | case1 => cases found
  | case2 c rest closes =>
    simp only [Bool.and_eq_true, decide_eq_true_eq] at closes
    have length := congrArg List.length closes.2
    simp only [List.length_take, List.length_replicate] at length
    cases found
    refine ⟨by omega, by simp only [List.length_cons]; omega, fun other => ?_⟩
    rw [Nat.add_comm, List.take_succ_cons, closes.2]
    simp [rawWidth?, closes.1, Nat.add_comm]
  | case3 c rest goes ih =>
    obtain ⟨more, inner, rfl⟩ := Option.map_eq_some_iff.mp found
    obtain ⟨least, le, kept⟩ := ih more inner
    refine ⟨by omega, by simpa using le, fun other => ?_⟩
    have inside : (rest.take more ++ other).take hashes = rest.take hashes := by
      rw [List.take_append_of_le_length (by rw [List.length_take]; omega), List.take_take,
        Nat.min_eq_left (by omega)]
    rw [List.take_succ_cons, List.cons_append, rawWidth?, inside, if_neg goes, kept]
    rfl

theorem quotedWidth?_plain {quote : Char} (plain : c ≠ '\\') (rest : List Char) :
    quotedWidth? quote (c :: rest) =
      if c = quote then some 1 else (quotedWidth? quote rest).map (· + 1) := by
  rw [quotedWidth?] <;> grind

theorem quotedWidth?_closing (quote : Char) : Closing 1 (quotedWidth? quote) := by
  intro text width found
  fun_induction quotedWidth? quote text generalizing width with
  | case1 d rest ih =>
    obtain ⟨more, inner, rfl⟩ := Option.map_eq_some_iff.mp found
    obtain ⟨least, le, kept⟩ := ih more inner
    exact ⟨by omega, by simpa using le, by simp [quotedWidth?, kept]⟩
  | case2 | case5 => cases found
  | case3 rest escaped alone =>
    have plain : quote ≠ '\\' := by
      rintro rfl
      cases rest <;> simp at escaped alone
    cases found
    exact ⟨le_rfl, by simp, fun other => (quotedWidth?_plain plain other).trans (if_pos rfl)⟩
  | case4 c rest escaped alone goes ih =>
    have plain : c ≠ '\\' := by
      rintro rfl
      cases rest <;> simp at escaped alone
    obtain ⟨more, inner, rfl⟩ := Option.map_eq_some_iff.mp found
    obtain ⟨least, le, kept⟩ := ih more inner
    refine ⟨by omega, by simpa using le, fun other => ?_⟩
    rw [List.take_succ_cons, List.cons_append, quotedWidth?_plain plain, if_neg goes, kept]
    rfl

theorem commentWidth?_closing (depth : Nat) : Closing 2 (commentWidth? depth) := by
  intro text width found
  fun_induction commentWidth? depth text generalizing width with
  | case2 => 
    cases found
    simp [commentWidth?]
  | case5 => cases found
  | case1 depth rest ih | case3 depth rest ih =>
    obtain ⟨more, inner, rfl⟩ := Option.map_eq_some_iff.mp found
    obtain ⟨least, le, kept⟩ := ih more inner
    exact ⟨by omega, by simpa using le, by simp [commentWidth?, kept]⟩
  | case4 depth c rest opens closes closes' ih =>
    obtain ⟨more, inner, rfl⟩ := Option.map_eq_some_iff.mp found
    obtain ⟨least, le, kept⟩ := ih more inner
    refine ⟨by omega, by simpa using le, fun other => ?_⟩
    -- A comment ends with two characters, so the next one stands in the text.
    obtain ⟨d, rest, rfl⟩ := List.exists_cons_of_length_pos (show 0 < rest.length by omega)
    obtain ⟨more, rfl⟩ := Nat.exists_eq_succ_of_ne_zero (show more ≠ 0 by omega)
    have kept := kept other
    simp only [List.take_succ_cons, List.cons_append] at kept ⊢
    rw [commentWidth?, kept, Option.map_some]
    · intro tail slash same
      exact opens _ slash (congrArg (· :: rest) (List.cons.inj same).1)
    · intro tail zero star same
      exact closes _ zero star (congrArg (· :: rest) (List.cons.inj same).1)
    · intro depth tail inside star same
      exact closes' depth _ inside star (congrArg (· :: rest) (List.cons.inj same).1)

end Closed

section Cuts

variable {ahead other : List Char}
variable {piece : Cut} {hashes opening : Nat}

theorem rawOpening?_of_ne (other : text.head? ≠ some 'b') :
    rawOpening? text = rawOpeningAfter? 0 text := by
  unfold rawOpening?
  split
  · exact absurd rfl other
  · rfl

theorem rawOpeningAfter?_eq_some {mark : Nat} :
    rawOpeningAfter? mark text = some (hashes, opening) ↔
      'r' :: (List.replicate hashes '#' ++ ['"']) <+: text ∧ opening = mark + 1 + hashes + 1 := by
  constructor
  · intro found
    unfold rawOpeningAfter? at found
    split at found
    · rename_i rest
      dsimp only at found
      split_ifs at found with quoted
      obtain ⟨more, same⟩ := List.head?_eq_some_iff.mp quoted
      cases found
      have run : rest.takeWhile (· = '#') = List.replicate (rest.takeWhile (· = '#')).length '#' :=
        List.eq_replicate_iff.mpr ⟨rfl, fun c member => by simpa using List.mem_takeWhile_imp member⟩
      refine ⟨⟨more, ?_⟩, rfl⟩
      rw [List.cons_append, List.append_assoc, ← run, List.singleton_append, ← same,
        List.prefix_iff_eq_append.mp (List.takeWhile_prefix _)]
    · cases found
  · rintro ⟨⟨more, rfl⟩, rfl⟩
    have run : (List.replicate hashes '#' ++ '"' :: more).takeWhile (· = '#') =
        List.replicate hashes '#' := by
      rw [List.takeWhile_append_of_pos (by simp)]
      simp
    simp [rawOpeningAfter?, run]

/-- What a raw string begins with, after the mark of a byte string. -/
def rawFront (mark : List Char) (hashes : Nat) : List Char :=
  mark ++ 'r' :: (List.replicate hashes '#' ++ ['"'])

theorem rawOpening?_eq_some : rawOpening? text = some (hashes, opening) ↔
    ∃ mark ∈ [[], ['b']], rawFront mark hashes <+: text ∧
      opening = (rawFront mark hashes).length := by
  have length (mark : List Char) :
      (rawFront mark hashes).length = mark.length + 1 + hashes + 1 := by
    simp only [rawFront, List.length_append, List.length_cons, List.length_replicate,
      List.length_nil]
    omega
  simp only [List.mem_cons, List.not_mem_nil, or_false, exists_eq_or_imp, exists_eq_left, length]
  by_cases marked : text.head? = some 'b'
  · obtain ⟨rest, rfl⟩ := List.head?_eq_some_iff.mp marked
    rw [rawOpening?, rawOpeningAfter?_eq_some]
    simp [rawFront, List.cons_prefix_cons]
  · have apart : ¬ rawFront ['b'] hashes <+: text := by
      rintro ⟨rest, rfl⟩
      exact marked rfl
    rw [rawOpening?_of_ne marked, rawOpeningAfter?_eq_some]
    simp only [apart, false_and, or_false]
    exact Iff.rfl

theorem rawOpening?_le (h : rawOpening? text = some (hashes, opening)) :
    opening ≤ text.length ∧ 1 ≤ opening := by
  obtain ⟨mark, -, before, rfl⟩ := rawOpening?_eq_some.mp h
  refine ⟨before.length_le, ?_⟩
  simp only [rawFront, List.length_append, List.length_cons]
  omega

theorem rawOpening?_retarget (h : rawOpening? (text ++ ahead) = some (hashes, opening))
    (fits : opening ≤ text.length) (other : List Char) :
    rawOpening? (text ++ other) = some (hashes, opening) := by
  obtain ⟨mark, member, before, rfl⟩ := rawOpening?_eq_some.mp h
  have here := List.prefix_of_prefix_length_le before (List.prefix_append _ _) fits
  exact rawOpening?_eq_some.mpr ⟨mark, member, here.trans (List.prefix_append _ _), rfl⟩

theorem rawOpening?_none (h : rawOpening? (text ++ ahead) = none) (ends : Ends other) :
    rawOpening? (text ++ other) = none := by
  cases found : rawOpening? (text ++ other) with
  | none => rfl
  | some pair =>
    obtain ⟨hashes, opening⟩ := pair
    obtain ⟨mark, member, before, -⟩ := rawOpening?_eq_some.mp found
    obtain here | ⟨-, c, head, among⟩ := prefix_append_cases before
    · rw [rawOpening?_eq_some.mpr ⟨mark, member, here.trans (List.prefix_append _ _), rfl⟩] at h
      cases h
    · have sealed := ends.isSeal c head
      simp only [rawFront, List.mem_append, List.mem_cons, List.mem_replicate, List.not_mem_nil,
        or_false] at member among
      have among : c = 'b' ∨ c = 'r' ∨ c = '#' ∨ c = '"' := by grind
      obtain rfl | rfl | rfl | rfl := among <;> exact absurd sealed (by decide)

theorem closeLiteral_eq_ok {kind : Token.Kind} {what : String} {opening reported : Nat}
    {found : Option Nat} (h : closeLiteral kind what opening reported found = .ok piece) :
    ∃ width, found = some width ∧ piece = ⟨some kind, opening + width - 1⟩ := by
  cases found with
  | none => cases h
  | some width => exact ⟨width, rfl, (Except.ok.inj h).symm⟩

theorem cutPlain_le (h : cutPlain c rest = .ok piece) : piece.more ≤ rest.length := by
  have numeral := numeralWidth_local.le (c :: rest)
  have word := wordWidth_le (c :: rest)
  have mark := markWidth_le (c :: rest)
  simp only [List.length_cons] at numeral word mark
  unfold cutPlain at h
  dsimp only at h
  split_ifs at h <;> cases h <;> simp only <;> omega

/-- What comes of cutting off a token: a literal or a lifetime, an error in one of them, or what
comes of a numeral, a word or a mark. -/
inductive TokenCut (c : Char) (rest : List Char) : Except Stop Cut → Prop where
  | literal {kind : Token.Kind} {more : Nat} (among : kind ∈ [.str, .char, .lifetime])
      (le : more ≤ rest.length) : TokenCut c rest (.ok ⟨some kind, more⟩)
  | unclosed {what : String} {skipped : Nat} (le : skipped ≤ rest.length + 1) :
      TokenCut c rest (.error (.unterminated what skipped))
  | quote : TokenCut c rest (.error (.unexpected '\''))
  | plain {result : Except Stop Cut} (quoted : c ≠ '"') (quote : c ≠ '\'')
      (plain : cutPlain c rest = result) : TokenCut c rest result

theorem tokenCut_closeLiteral {kind : Token.Kind} (among : kind ∈ [.str, .char, .lifetime])
    (what : String) {opening reported : Nat} {found : Option Nat}
    (le : ∀ width, found = some width → opening + width ≤ rest.length + 1)
    (fits : reported ≤ rest.length + 1) :
    TokenCut c rest (closeLiteral kind what opening reported found) := by
  cases found with
  | none => exact .unclosed fits
  | some width => exact .literal among (Nat.sub_le_of_le_add (le width rfl))

theorem tokenCut_cutToken (c : Char) (rest : List Char) : TokenCut c rest (cutToken c rest) := by
  have quoted {mark : Char} {body : List Char} {opening : Nat} {kind : Token.Kind}
      (among : kind ∈ [.str, .char, .lifetime]) (what : String)
      (within : opening + body.length ≤ rest.length + 1) :
      TokenCut c rest (closeLiteral kind what opening opening (quotedWidth? mark body)) := by
    refine tokenCut_closeLiteral among what (fun width found => ?_) (by omega)
    have := (quotedWidth?_closing _ _ _ found).2.1
    omega
  unfold cutToken
  split
  · rename_i hashes opening opens
    refine tokenCut_closeLiteral (by simp) _ (fun width found => ?_) (Nat.zero_le _)
    have := rawOpening?_le opens
    have := (rawWidth?_closing _ _ _ found).2.1
    simp only [List.length_drop, List.length_cons] at *
    omega
  · split
    · exact quoted (by simp) _ (by omega)
    · exact quoted (by simp) _ (by simp only [List.length_cons]; omega)
    · exact quoted (by simp) _ (by simp only [List.length_cons]; omega)
    · unfold cutQuote
      split
      · exact quoted (by simp) _ (by omega)
      · exact .literal (by simp) (by simp)
      · split_ifs
        · exact .quote
        · exact .literal (by simp) (wordWidth_le _)
    · exact .plain ‹_› ‹_› rfl

/-- A text begins with a gap, with a comment that is not closed, or with a token. -/
theorem cut_cases {result : Except Stop Cut} (h : cut c rest = result) :
    (∃ more ≤ rest.length, result = .ok ⟨none, more⟩) ∨
      result = .error (.unterminated "block comment" 0) ∨
      Text.isBlank c = false ∧ (c = '/' → rest.head? ≠ some '/' ∧ rest.head? ≠ some '*') ∧
        cutToken c rest = result := by
  unfold cut at h
  split at h
  · exact .inl ⟨0, Nat.zero_le _, h.symm⟩
  · rename_i blank
    split at h
    · rename_i body
      have := takeWhile_length_le (· ≠ '\n') body
      exact .inl ⟨_, by simp only [List.length_cons]; omega, h.symm⟩
    · split at h
      · rename_i found
        have := (commentWidth?_closing _ _ _ found).2.1
        exact .inl ⟨_, by simp only [List.length_cons]; omega, h.symm⟩
      · exact .inr (.inl h.symm)
    · rename_i line block
      refine .inr (.inr ⟨by simpa using blank, ?_, h⟩)
      rintro rfl
      refine ⟨fun first => ?_, fun first => ?_⟩
      · obtain ⟨body, rfl⟩ := List.head?_eq_some_iff.mp first
        exact line body rfl rfl
      · obtain ⟨body, rfl⟩ := List.head?_eq_some_iff.mp first
        exact block body rfl rfl

/-- A piece is no longer than the text. -/
theorem cut_le (h : cut c rest = .ok piece) : piece.more ≤ rest.length := by
  obtain ⟨more, le, same⟩ | failed | ⟨-, -, found⟩ := cut_cases h
  · cases same
    exact le
  · cases failed
  · cases found ▸ tokenCut_cutToken c rest with
    | literal _ le => exact le
    | plain _ _ plain => exact cutPlain_le plain

/-- What follows a text does not matter for a mark that ends within it. -/
def SameMark (text ahead other : List Char) : Prop :=
  markWidth (text ++ ahead) ≤ text.length → markWidth (text ++ other) = markWidth (text ++ ahead)

theorem sameMark_of_breaks (breaks : ∀ c ∈ other.head?, isBreak c) (some : text ≠ []) :
    SameMark text ahead other := by
  intro fits
  have same := (markWidth_cases some ahead).resolve_right fun goes => by omega
  have same' := (markWidth_cases some other).resolve_right fun ⟨_, c, head, goes⟩ => by
    simp [breaks c head] at goes
  rw [same, same']

theorem two_le_markWidth_points (ahead : List Char) : 2 ≤ markWidth ('.' :: '.' :: ahead) := by
  unfold markWidth
  cases found : compoundMarks.find? fun mark => mark.isPrefixOf ('.' :: '.' :: ahead) with
  | none =>
    have apart := List.find?_eq_none.mp found ['.', '.'] (by decide)
    simp at apart
  | some mark =>
    have wide : ∀ mark ∈ compoundMarks, 2 ≤ mark.length := by decide
    exact wide mark (List.mem_of_find?_eq_some found)

/-- Whether a mark goes on is decided by the next character. -/
theorem sameMark_of_head (some : text ≠ []) : SameMark text (c :: ahead) (c :: other) := by
  intro fits
  rcases text with _ | ⟨first, _ | ⟨second, _ | ⟨third, rest⟩⟩⟩
  · contradiction
  · by_cases points : first = '.' ∧ c = '.'
    · obtain ⟨rfl, rfl⟩ := points
      have wide := two_le_markWidth_points ahead
      simp only [List.cons_append, List.nil_append, List.length_cons, List.length_nil] at fits
      omega
    · by_cases point : first = '.'
      · have other : ('.' == c) = false := by
          rw [beq_eq_false_iff_ne]
          rintro rfl
          exact points ⟨point, rfl⟩
        simp [markWidth, compoundMarks, List.find?, List.isPrefixOf, other]
      · have other : ('.' == first) = false := by
          rw [beq_eq_false_iff_ne]
          exact fun same => point same.symm
        simp [markWidth, compoundMarks, List.find?, List.isPrefixOf, other]
  · simp [markWidth, compoundMarks, List.find?, List.isPrefixOf]
  · simp [markWidth, compoundMarks, List.find?, List.isPrefixOf]

theorem cutPlain_retarget (h : cutPlain c (text ++ ahead) = .ok piece)
    (fits : piece.more ≤ text.length) (ends : Ends other)
    (marks : piece.kind = some .punct → SameMark (c :: text) ahead other) :
    cutPlain c (text ++ other) = .ok piece := by
  have length : (c :: text).length = text.length + 1 := List.length_cons
  simp only [cutPlain, ← List.cons_append] at h ⊢
  by_cases digit : c.isDigit
  · simp only [digit, if_true] at h ⊢
    obtain rfl := Except.ok.inj h
    have fits : numeralWidth (c :: text ++ ahead) ≤ (c :: text).length := by
      simp only at fits
      omega
    rw [numeralWidth_local.retarget _ fits ends, List.take_append_of_le_length fits,
      List.take_append_of_le_length fits]
  by_cases foreign : Text.isDigitLike c
  · simp [digit, foreign] at h
  simp only [digit, foreign, if_false, Bool.false_eq_true] at h ⊢
  by_cases word : wordWidth (c :: text ++ ahead) = 0
  · have none := wordWidth_local.retarget (c :: text) (word.le.trans (Nat.zero_le _)) ends
    simp only [none, word, ne_eq, not_true_eq_false, if_false] at h ⊢
    split_ifs at h with mark
    obtain rfl := Except.ok.inj h
    simp only at fits
    rw [marks rfl (by omega), if_pos mark]
  · rw [if_pos word] at h
    obtain rfl := Except.ok.inj h
    have fits : wordWidth (c :: text ++ ahead) ≤ (c :: text).length := by
      simp only at fits
      omega
    rw [wordWidth_local.retarget _ fits ends, if_pos word]

theorem cutQuote_pos (h : cutQuote rest = .ok piece) : 1 ≤ piece.more := by
  unfold cutQuote at h
  split at h
  · obtain ⟨width, found, rfl⟩ := closeLiteral_eq_ok h
    have := (quotedWidth?_closing _ _ _ found).1
    simp only
    omega
  · cases h
    simp
  · split_ifs at h with none
    cases h
    exact Nat.pos_of_ne_zero none

theorem cutQuote_char (escape : c ≠ '\\') (rest : List Char) :
    cutQuote (c :: '\'' :: rest) = .ok ⟨some .char, 2⟩ := by
  unfold cutQuote
  split
  · rename_i same
    exact absurd (List.cons.inj same).1 escape
  · rfl
  · rename_i other
    exact absurd rfl (other c rest)

theorem cutQuote_word (escape : rest.head? ≠ some '\\') (quote : (rest.drop 1).head? ≠ some '\'') :
    cutQuote rest = if wordWidth rest = 0 then .error (.unexpected '\'')
      else .ok ⟨some .lifetime, wordWidth rest⟩ := by
  unfold cutQuote
  split
  · simp at escape
  · simp at quote
  · rfl

theorem cutQuote_retarget (h : cutQuote (text ++ ahead) = .ok piece)
    (fits : piece.more ≤ text.length) (ends : Ends other) :
    cutQuote (text ++ other) = .ok piece := by
  have some := cutQuote_pos h
  rcases text with _ | ⟨c, rest⟩
  · simp only [List.length_nil] at fits
    omega
  by_cases escape : c = '\\'
  · subst escape
    obtain ⟨width, found, rfl⟩ := closeLiteral_eq_ok h
    simp only at fits
    have kept := (quotedWidth?_closing _).retarget found (by omega) other
    change closeLiteral _ _ _ _ (quotedWidth? '\'' ('\\' :: rest ++ other)) = _
    rw [kept]
    rfl
  by_cases quote : rest.head? = Option.some '\''
  · obtain ⟨more, rfl⟩ := List.head?_eq_some_iff.mp quote
    simp only [List.cons_append, cutQuote_char escape] at h ⊢
    exact h
  have plain (ahead : List Char) : (c :: rest ++ ahead).head? ≠ Option.some '\\' := by
    simpa using escape
  have apart : ((c :: rest ++ other).drop 1).head? ≠ Option.some '\'' := by
    rwa [List.cons_append, List.drop_succ_cons, List.drop_zero, Ne,
      head?_append_ends (by decide) ends]
  by_cases quote' : ((c :: rest ++ ahead).drop 1).head? = Option.some '\''
  · -- A character has its closing quote in the text.
    obtain ⟨more, same⟩ := List.head?_eq_some_iff.mp quote'
    rw [List.cons_append, List.drop_succ_cons, List.drop_zero] at same
    rw [List.cons_append, same, cutQuote_char escape] at h
    obtain rfl := Except.ok.inj h
    cases rest with
    | nil => simp at fits
    | cons d rest =>
      obtain ⟨rfl, -⟩ := List.cons.inj same
      simp at quote
  · rw [cutQuote_word (plain ahead) quote'] at h
    split_ifs at h with empty
    obtain rfl := Except.ok.inj h
    rw [cutQuote_word (plain other) apart, wordWidth_local.retarget (c :: rest) fits ends,
      if_neg empty]

theorem cutToken_plain (raw : rawOpening? (c :: rest) = none) (text : c ≠ '"') (quote : c ≠ '\'')
    (bytes : c = 'b' → rest.head? ≠ some '"' ∧ rest.head? ≠ some '\'') :
    cutToken c rest = cutPlain c rest := by
  unfold cutToken
  rw [raw]
  dsimp only
  split
  · exact absurd rfl text
  · simp at bytes
  · simp at bytes
  · exact absurd rfl quote
  · rfl

theorem cutToken_retarget (h : cutToken c (text ++ ahead) = .ok piece)
    (fits : piece.more ≤ text.length) (ends : Ends other)
    (marks : piece.kind = some .punct → SameMark (c :: text) ahead other) :
    cutToken c (text ++ other) = .ok piece := by
  cases opens : rawOpening? (c :: (text ++ ahead)) with
  | some found =>
    obtain ⟨hashes, opening⟩ := found
    simp only [cutToken, opens] at h
    obtain ⟨width, found, rfl⟩ := closeLiteral_eq_ok h
    have wide := (rawWidth?_closing _ _ _ found).1
    have bound : opening + width ≤ (c :: text).length := by
      simp only [List.length_cons] at fits ⊢
      omega
    rw [← List.cons_append] at opens found
    have opens' := rawOpening?_retarget opens (by omega) other
    rw [drop_append_le (by omega)] at found
    have kept := (rawWidth?_closing _).retarget found (by rw [List.length_drop]; omega) other
    rw [← drop_append_le (by omega)] at kept
    simp only [cutToken, ← List.cons_append, opens', kept]
    rfl
  | none =>
    have opens' : rawOpening? (c :: (text ++ other)) = none := by
      rw [← List.cons_append] at opens ⊢
      exact rawOpening?_none opens ends
    by_cases quoted : c = '"'
    · subst quoted
      simp only [cutToken, opens, opens'] at h ⊢
      obtain ⟨width, found, rfl⟩ := closeLiteral_eq_ok h
      simp only at fits
      rw [(quotedWidth?_closing _).retarget found (by omega) other]
      rfl
    by_cases quote : c = '\''
    · subst quote
      simp only [cutToken, opens, opens'] at h ⊢
      exact cutQuote_retarget h fits ends
    by_cases bytes : c = 'b' ∧ (text.head? = some '"' ∨ text.head? = some '\'')
    · obtain ⟨rfl, first | first⟩ := bytes
      all_goals
        obtain ⟨body, rfl⟩ := List.head?_eq_some_iff.mp first
        simp only [List.cons_append] at opens opens' h ⊢
        simp only [cutToken, opens, opens'] at h ⊢
        obtain ⟨width, found, rfl⟩ := closeLiteral_eq_ok h
        simp only [List.length_cons] at fits
        rw [(quotedWidth?_closing _).retarget found (by omega) other]
        rfl
    · have apart (d : Char) (none : isSeal d = false) : (text ++ other).head? = some d ↔
          text.head? = some d := head?_append_ends none ends text
      have plain : c = 'b' → (text ++ ahead).head? ≠ some '"' ∧
          (text ++ ahead).head? ≠ some '\'' := by
        rintro rfl
        cases text with
        | cons d rest => exact not_or.mp fun some => bytes ⟨rfl, some⟩
        | nil =>
          -- The literal is longer than its mark.
          by_contra first
          rw [not_and_or, not_not, not_not] at first
          obtain first | first := first
          all_goals
            obtain ⟨body, rfl⟩ := List.head?_eq_some_iff.mp first
            simp only [List.nil_append, cutToken] at opens h
            rw [opens] at h
            obtain ⟨width, found, rfl⟩ := closeLiteral_eq_ok h
            have := (quotedWidth?_closing _ _ _ found).1
            simp only [List.length_nil] at fits
            omega
      have plain' : c = 'b' → (text ++ other).head? ≠ some '"' ∧
          (text ++ other).head? ≠ some '\'' := by
        intro marked
        rw [Ne, Ne, apart _ (by decide), apart _ (by decide)]
        exact not_or.mp fun some => bytes ⟨marked, some⟩
      rw [cutToken_plain opens quoted quote plain] at h
      rw [cutToken_plain opens' quoted quote plain']
      exact cutPlain_retarget h fits ends marks

theorem cut_token (blank : Text.isBlank c = false)
    (comment : c = '/' → rest.head? ≠ some '/' ∧ rest.head? ≠ some '*') :
    cut c rest = cutToken c rest := by
  unfold cut
  rw [blank]
  simp only [Bool.false_eq_true, if_false]
  split
  · simp at comment
  · simp at comment
  · rfl

/-- No token is a gap, and a word begins like a word. -/
theorem cutToken_kind (h : cutToken c rest = .ok piece) :
    ∃ kind, piece.kind = some kind ∧ (kind = .ident → isWordStart c) := by
  cases h ▸ tokenCut_cutToken c rest with
  | literal among _ =>
    refine ⟨_, rfl, ?_⟩
    rintro rfl
    simp at among
  | plain _ _ plain =>
    unfold cutPlain at plain
    dsimp only at plain
    split_ifs at plain with digit foreign word mark <;> cases plain
    · refine ⟨_, rfl, ?_⟩
      unfold numeralKind
      split_ifs <;> simp
    · exact ⟨_, rfl, fun _ => isWordStart_of_wordWidth word⟩
    · exact ⟨_, rfl, by simp⟩

/-- A token begins with no blank and opens no comment. -/
theorem no_gap_of_cut {kind : Token.Kind} {more : Nat} (h : cut c rest = .ok ⟨some kind, more⟩) :
    Text.isBlank c = false ∧ (c = '/' → rest.head? ≠ some '/' ∧ rest.head? ≠ some '*') := by
  obtain ⟨more, -, same⟩ | failed | ⟨blank, comment, -⟩ := cut_cases h
  · cases same
  · cases failed
  · exact ⟨blank, comment⟩

/-- A token that ends within a text is the same token in front of any text it could not go on
with. -/
theorem cut_token_retarget {kind : Token.Kind} {more : Nat}
    (h : cut c (text ++ ahead) = .ok ⟨some kind, more⟩) (fits : more ≤ text.length)
    (ends : Ends other) (marks : kind = .punct → SameMark (c :: text) ahead other) :
    cut c (text ++ other) = .ok ⟨some kind, more⟩ := by
  obtain ⟨blank, comment⟩ := no_gap_of_cut h
  have comment' : c = '/' → (text ++ other).head? ≠ some '/' ∧ (text ++ other).head? ≠ some '*' := by
    intro slash
    have apart := comment slash
    rw [Ne, Ne, head?_append_ends (by decide) ends, head?_append_ends (by decide) ends]
    cases text with
    | nil => simp
    | cons d rest => exact apart
  rw [cut_token blank comment] at h
  rw [cut_token blank comment']
  exact cutToken_retarget h fits ends fun punct => marks (Option.some.inj punct)

/-- A barrier is a token of its own. -/
theorem cut_barrier (barrier : isBarrier c) (rest : List Char) :
    cut c rest = .ok ⟨some .punct, 0⟩ := by
  obtain rfl | rfl | rfl | rfl := isBarrier_cases barrier <;> rfl

end Cuts

end ActorGlue.Scan
