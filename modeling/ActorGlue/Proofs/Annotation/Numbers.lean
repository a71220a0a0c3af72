import ActorGlue.Proofs.Annotation.Grammar

/-!
# Method numbers

The integer literals of the language are rows of digits with bars among them, behind the mark of
their base if it is not ten, and perhaps in front of the name of an integer type. Each of them is
one token, and binds a method to its number if that is not too large. Of the other tokens that are
integers those are read whose mark has bars between its zero and its letter.
-/

namespace ActorGlue

namespace Text

section Definitions

/-- A row of letters, digits and bars, in which the letters and digits spell a number in a base. -/
structure DigitRow (base : Nat) (row : List Char) (n : Nat) : Prop where
  plain : ∀ c ∈ row, c.isAlphanum ∨ c = '_'
  spells : Spells base (row.filter (· ≠ '_')) n

/-- An integer literal of the language and its number. In base ten a digit comes first, and there
are not too many of them. -/
inductive Proper : List Char → Nat → Prop where
  | decimal {row suffix : List Char} {n : Nat} (reads : DigitRow 10 row n) (first : row.head? ≠ some '_')
      (short : (row.filter (· ≠ '_')).length ≤ maxDecimalDigits)
      (named : suffix = [] ∨ suffix ∈ intSuffixes) : Proper (row ++ suffix) n
  | marked {base n : Nat} {mark : Char} {row suffix : List Char} (marks : Marked base mark)
      (reads : DigitRow base row n) (named : suffix = [] ∨ suffix ∈ intSuffixes) :
      Proper ('0' :: mark :: (row ++ suffix)) n

/-- A literal with bars between the zero and the letter of its mark, and the number that is read if
they do not count. -/
inductive Torn : List Char → Nat → Prop where
  | intro {base n : Nat} {mark : Char} {bars row suffix : List Char} (marks : Marked base mark)
      (some : bars ≠ []) (bar : ∀ c ∈ bars, c = '_')
      (reads : Numeral ('0' :: mark :: row.filter (· ≠ '_')) n)
      (named : suffix = [] ∨ suffix ∈ intSuffixes) :
      Torn ('0' :: (bars ++ mark :: (row ++ suffix))) n

end Definitions

section Digits

variable {c mark : Char} {base n : Nat} {row : List Char}

theorem isWordPart_of_isAlphanum (plain : c.isAlphanum) : Scan.isWordPart c := by
  simp only [Char.isAlphanum, Bool.or_eq_true] at plain
  simp only [Scan.isWordPart, Scan.isWordStart, Bool.or_eq_true]
  tauto

/-- There are few letters and digits, so what holds of them can be found out one by one. -/
theorem forall_isAlphanum {holds : Char → Prop}
    (all : ∀ code < 123, (Char.ofNat code).isAlphanum → holds (Char.ofNat code)) :
    ∀ c, c.isAlphanum → holds c := by
  intro c plain
  have codes := Scan.toNat_of_isWordPart (isWordPart_of_isAlphanum plain)
  have found := all c.toNat (by omega)
  rw [Char.ofNat_toNat] at found
  exact found plain

/-- The scanner takes the digits of a base behind its mark. -/
theorem Marked.basedDigit (marks : Marked base mark) : ∃ isDigit,
    Scan.basedDigit mark = some isDigit ∧ ∀ c, c.isAlphanum → isDigitOf base c → isDigit c := by
  cases marks
  · exact ⟨_, rfl, forall_isAlphanum (by decide)⟩
  · exact ⟨_, rfl, forall_isAlphanum (by decide)⟩
  · exact ⟨_, rfl, forall_isAlphanum (by decide)⟩

theorem isDigit_of_isDigitOf : ∀ c : Char, c.isAlphanum → isDigitOf 10 c → c.isDigit :=
  forall_isAlphanum (by decide)

/-- What holds of the bar and of the digits of the base holds of every character of a row. -/
theorem DigitRow.forall {holds : Char → Prop} (reads : DigitRow base row n) (bar : holds '_')
    (digits : ∀ c, c.isAlphanum → isDigitOf base c → holds c) : ∀ c ∈ row, holds c := by
  intro c member
  by_cases isBar : c = '_'
  · exact isBar ▸ bar
  · apply digits c ((reads.plain c member).resolve_right isBar)
    exact isDigitOf_of_spells reads.spells c (List.mem_filter.mpr ⟨member, by simpa using isBar⟩)

theorem DigitRow.ne_nil (reads : DigitRow base row n) : row ≠ [] := by
  rintro rfl
  exact reads.spells.1 rfl

end Digits

end Text

namespace Scan

open Text

variable {text row suffix : List Char} {c mark : Char} {base n : Nat}

theorem head_of_named (named : suffix = [] ∨ suffix ∈ intSuffixes) :
    ∀ c ∈ suffix.head?, c = 'i' ∨ c = 'u' := by
  intro c first
  obtain rfl | among := named
  · cases first
  · simp only [intSuffixes, List.mem_flatMap, List.mem_map] at among
    obtain ⟨sign, isSign, width, -, rfl⟩ := among
    cases first
    simpa using isSign

/-- A row ends where the name of a type begins. -/
theorem takeWhile_named {holds : Char → Bool} (named : suffix = [] ∨ suffix ∈ intSuffixes)
    (all : ∀ c ∈ row, holds c) (signed : holds 'i' = false) (unsigned : holds 'u' = false) :
    (row ++ suffix).takeWhile holds = row := by
  rw [List.takeWhile_append_of_pos all]
  cases suffix with
  | nil => exact List.append_nil row
  | cons c more =>
    have stops : holds c = false := by
      obtain rfl | rfl := head_of_named named c rfl
      · exact signed
      · exact unsigned
    rw [List.takeWhile_cons_of_neg (by simp [stops]), List.append_nil]

theorem hasFloatSuffix_of_not_mem (absent : 'f' ∉ text) : hasFloatSuffix text = false := by
  have ends : ∀ more, ('f' :: more).isSuffixOf text = false := by
    intro more
    rw [Bool.eq_false_iff]
    intro ends
    exact absent ((List.isSuffixOf_iff_suffix.mp ends).mem List.mem_cons_self)
  rw [hasFloatSuffix, ends, ends, Bool.or_false]

theorem not_mem_named (named : suffix = [] ∨ suffix ∈ intSuffixes) : 'f' ∉ suffix := by
  have all : ∀ suffix ∈ [] :: intSuffixes, 'f' ∉ suffix := by decide
  exact all suffix (List.mem_cons.mpr named)

theorem isToken_of_numeral (digit : c.isDigit) (width : numeralWidth (c :: text) = text.length + 1)
    (kind : numeralKind (c :: text) = .int) : Lexeme.IsToken ⟨.int, String.ofList (c :: text)⟩ := by
  refine ⟨c, text, String.toList_ofList, ?_⟩
  rw [List.append_nil, cut_numeral digit, width, ← List.length_cons, List.take_length, kind]
  rfl

/-- Digits and bars behind a digit, with the name of a type behind them, are one token. -/
theorem isToken_decimal (digit : c.isDigit) (digits : ∀ d ∈ row, isDigitOrBar d)
    (named : suffix = [] ∨ suffix ∈ intSuffixes) :
    Lexeme.IsToken ⟨.int, String.ofList (c :: (row ++ suffix))⟩ := by
  have all : ∀ d ∈ c :: row, isDigitOrBar d :=
    List.forall_mem_cons.mpr ⟨by simp [isDigitOrBar, digit], digits⟩
  have taken : (c :: (row ++ suffix)).takeWhile isDigitOrBar = c :: row :=
    takeWhile_named named all (by decide) (by decide)
  have left : (c :: (row ++ suffix)).dropWhile isDigitOrBar = suffix := by
    rw [← drop_takeWhile_length, taken, ← List.cons_append, List.drop_left]
  have unmarked : basedWidth? (c :: (row ++ suffix)) = none := by
    unfold basedWidth?
    split
    · rename_i mark rest same
      have second : (row ++ suffix).head? = some mark := by
        rw [(List.cons.inj same).2, List.head?_cons]
      have none : basedDigit mark = none := by
        cases row with
        | nil =>
          obtain rfl | rfl := head_of_named named mark second
          · rfl
          · rfl
        | cons d more =>
          cases second
          by_contra some
          obtain ⟨isDigit, based⟩ := Option.ne_none_iff_exists'.mp some
          have apart := isDigitOrBar_of_basedDigit based
          rw [digits mark List.mem_cons_self] at apart
          cases apart
      rw [none]
      rfl
    · rfl
  apply isToken_of_numeral digit
  · have sizes : ∀ suffix ∈ [] :: intSuffixes, fractionWidth suffix = 0 ∧ exponentWidth suffix = 0 ∧
        plainWordWidth suffix = suffix.length := by decide
    obtain ⟨fraction, exponent, word⟩ := sizes suffix (List.mem_cons.mpr named)
    simp only [numeralWidth, unmarked, Option.getD_none, decimalWidth, drop_takeWhile_length, left,
      fraction, Nat.add_zero, exponent, word]
    simp only [taken, List.length_cons, List.length_append]
    omega
  · have forms : ∀ suffix ∈ [] :: intSuffixes, hasFloatForm suffix = false ∧
        suffix.dropWhile isDigitOrBar = suffix := by decide
    obtain ⟨form, kept⟩ := forms suffix (List.mem_cons.mpr named)
    have noForm : hasFloatForm (c :: (row ++ suffix)) = false := by
      rw [hasFloatForm, left]
      rwa [hasFloatForm, kept] at form
    have absent : 'f' ∉ c :: (row ++ suffix) := by
      rw [← List.cons_append, List.mem_append]
      rintro (member | member)
      · exact absurd (all 'f' member) (by decide)
      · exact not_mem_named named member
    rw [numeralKind, noForm, hasFloatSuffix_of_not_mem absent, Bool.and_false, Bool.false_and]
    rfl

theorem numeralWidth_marked {isDigit : Char → Bool} {ahead : List Char}
    (based : basedDigit mark = some isDigit) (some : row ≠ [])
    (taken : (row ++ ahead).takeWhile (fun c => isDigit c || c = '_') = row) :
    numeralWidth ('0' :: mark :: (row ++ ahead)) = 2 + row.length + suffixWidth ahead := by
  have long : row.length ≠ 0 := by simpa using some
  simp only [numeralWidth, basedWidth?, based, taken, Option.bind_eq_bind, Option.bind_some,
    if_neg long, List.drop_left, Option.getD_some]

/-- Digits of a base and bars behind its mark, with the name of a type behind them, are one
token. -/
theorem isToken_marked (marks : Marked base mark) (reads : DigitRow base row n)
    (named : suffix = [] ∨ suffix ∈ intSuffixes) :
    Lexeme.IsToken ⟨.int, String.ofList ('0' :: mark :: (row ++ suffix))⟩ := by
  obtain ⟨isDigit, based, digits⟩ := marks.basedDigit
  have apart : isDigit 'i' = false ∧ isDigit 'u' = false := by
    cases marks <;> cases based <;> decide
  have taken : (row ++ suffix).takeWhile (fun c => isDigit c || c = '_') = row := by
    apply takeWhile_named named
    · exact reads.forall (by simp) fun c plain digit => by simp [digits c plain digit]
    · simp [apart.1]
    · simp [apart.2]
  apply isToken_of_numeral (by decide)
  · have sizes : ∀ suffix ∈ [] :: intSuffixes, suffixWidth suffix = suffix.length := by decide
    rw [numeralWidth_marked based reads.ne_nil taken, sizes suffix (List.mem_cons.mpr named),
      List.length_cons, List.length_append]
    omega
  · have marked : hasBaseMark ('0' :: mark :: (row ++ suffix)) = true := by
      rw [hasBaseMark, based]
      rfl
    rw [numeralKind, marked, Bool.not_true, Bool.false_and, if_neg Bool.false_ne_true]
    have absent (apart : ∀ c, c.isAlphanum → isDigitOf base c → c ≠ 'f') (other : mark ≠ 'f') :
        'f' ∉ '0' :: mark :: (row ++ suffix) := by
      have inside : ∀ c ∈ row, c ≠ 'f' := reads.forall (by decide) apart
      simp only [List.mem_cons, List.mem_append, not_or]
      exact ⟨by decide, other.symm, fun member => inside 'f' member rfl, not_mem_named named⟩
    cases marks with
    | hexadecimal => simp
    | octal | binary =>
      rw [hasFloatSuffix_of_not_mem (absent (forall_isAlphanum (by decide)) (by decide))]
      rfl

end Scan

namespace Text

variable {text : List Char} {n : Nat}

theorem Proper.isToken (proper : Proper text n) : Lexeme.IsToken ⟨.int, String.ofList text⟩ := by
  cases proper with
  | @decimal row _ _ reads first _ named =>
    cases row with
    | nil => exact absurd rfl reads.ne_nil
    | cons c row =>
      have digits : ∀ d ∈ c :: row, Scan.isDigitOrBar d := by
        refine reads.forall (by decide) ?_
        intro d plain digit
        simp [Scan.isDigitOrBar, isDigit_of_isDigitOf d plain digit]
      obtain ⟨head, rest⟩ := List.forall_mem_cons.mp digits
      have digit : c.isDigit := by
        simp only [Scan.isDigitOrBar, Bool.or_eq_true, decide_eq_true_eq] at head
        apply head.resolve_right
        rintro rfl
        exact first rfl
      exact Scan.isToken_decimal digit rest named
  | marked marks reads named => exact Scan.isToken_marked marks reads named

theorem Marked.ne_bar {base : Nat} {mark : Char} (marks : Marked base mark) : mark ≠ '_' := by
  cases marks <;> decide

theorem Proper.integerLiteral (proper : Proper text n) : IntegerLiteral text n := by
  cases proper with
  | @decimal row suffix _ reads _ short named =>
    exact ⟨row, suffix, rfl, named, .decimal reads.spells short⟩
  | @marked _ _ mark row suffix marks reads named =>
    refine ⟨'0' :: mark :: row, suffix, rfl, named, ?_⟩
    have kept : ('0' :: mark :: row).filter (· ≠ '_') = '0' :: mark :: row.filter (· ≠ '_') := by
      simp [marks.ne_bar]
    rw [kept]
    exact .marked marks reads.spells

theorem Torn.integerLiteral (torn : Torn text n) : IntegerLiteral text n := by
  obtain @⟨_, _, mark, bars, row, suffix, marks, _, bar, reads, named⟩ := torn
  refine ⟨'0' :: (bars ++ mark :: row), suffix, by simp, named, ?_⟩
  have none : bars.filter (· ≠ '_') = [] := by simpa using bar
  have kept : ('0' :: (bars ++ mark :: row)).filter (· ≠ '_') =
      '0' :: mark :: row.filter (· ≠ '_') := by
    rw [List.filter_cons_of_pos (by decide), List.filter_append, none, List.nil_append,
      List.filter_cons_of_pos (by simp [marks.ne_bar])]
  rw [kept]
  exact reads

/-- In front of the first character that is no bar there are only bars. -/
theorem exists_bars {tail rest : List Char} {c : Char} (first : tail.filter (· ≠ '_') = c :: rest) :
    ∃ bars row, tail = bars ++ c :: row ∧ (∀ d ∈ bars, d = '_') ∧ row.filter (· ≠ '_') = rest := by
  obtain ⟨bars, row, split, bar, -, left⟩ := List.filter_eq_cons_iff.mp first
  exact ⟨bars, row, split, by simpa using bar, left⟩

theorem suffixWidth_eq_zero {c : Char} {rest : List Char} (signed : c ≠ 'i') (unsigned : c ≠ 'u') :
    Scan.suffixWidth (c :: rest) = 0 := by
  have none : intSuffixes.find? (·.isPrefixOf (c :: rest)) = none := by
    rw [List.find?_eq_none]
    intro suffix among starts
    cases suffix with
    | nil => exact absurd among (by decide)
    | cons sign width =>
      obtain ⟨rfl, -⟩ := List.cons_prefix_cons.mp (List.isPrefixOf_iff_prefix.mp starts)
      obtain rfl | rfl := Scan.head_of_named (.inr among) sign rfl
      · exact signed rfl
      · exact unsigned rfl
  rw [Scan.suffixWidth, none]

/-- Behind a mark that is whole the scanner does not get past the same mark once more. -/
theorem not_isToken_doubled {base : Nat} {mark again : Char} {row digits suffix : List Char}
    (marks : Marked base mark) (same : again = mark ∨ again = mark.toUpper)
    (doubled : row.filter (· ≠ '_') = '0' :: again :: digits) :
    ¬Lexeme.IsToken ⟨.int, String.ofList ('0' :: mark :: (row ++ suffix))⟩ := by
  rintro ⟨c, more, whole, isCut⟩
  obtain ⟨rfl, rfl⟩ := List.cons.inj (String.toList_ofList.symm.trans whole)
  obtain ⟨bars, tail, rfl, bar, left⟩ := exists_bars doubled
  obtain ⟨bars', rest, rfl, bar', -⟩ := exists_bars left
  obtain ⟨isDigit, based, digit⟩ := marks.basedDigit
  have stops : isDigit again = false ∧ again ≠ '_' ∧ again ≠ 'i' ∧ again ≠ 'u' := by
    cases marks <;> cases based <;> obtain rfl | rfl := same <;> decide
  have zero : isDigit '0' := by cases marks <;> cases based <;> rfl
  have taken : ((bars ++ '0' :: bars') ++ again :: (rest ++ suffix)).takeWhile
      (fun c => isDigit c || c = '_') = bars ++ '0' :: bars' := by
    rw [List.takeWhile_append_of_pos, List.takeWhile_cons_of_neg (by simp [stops]), List.append_nil]
    intro d member
    simp only [List.mem_append, List.mem_cons] at member
    obtain member | rfl | member := member
    · simp [bar d member]
    · simp [zero]
    · simp [bar' d member]
  have split : bars ++ '0' :: (bars' ++ again :: rest) ++ suffix =
      (bars ++ '0' :: bars') ++ again :: (rest ++ suffix) := by simp
  obtain ⟨-, -, width⟩ := Scan.numeral_of_int isCut
  rw [List.append_nil, split, Scan.numeralWidth_marked based (by simp) taken,
    suffixWidth_eq_zero stops.2.2.1 stops.2.2.2, List.length_cons, List.length_append,
    List.length_cons] at width
  omega

/-- The tokens that are integers and whose numbers are read are the integer literals of the
language and those with a torn mark. -/
theorem integerLiteral_of_isToken (isToken : Lexeme.IsToken ⟨.int, String.ofList text⟩) :
    IntegerLiteral text n ↔ Proper text n ∨ Torn text n := by
  constructor
  · rintro ⟨body, suffix, rfl, named, reads⟩
    have parts := Lexeme.isWordPart_of_isToken isToken rfl
    rw [String.toList_ofList] at parts
    have plain : ∀ d ∈ body, d.isAlphanum ∨ d = '_' := by
      intro d member
      have part := parts d (List.mem_append_left _ member)
      simp only [Scan.isWordPart, Scan.isWordStart, Bool.or_eq_true, decide_eq_true_eq] at part
      simp only [Char.isAlphanum, Bool.or_eq_true]
      tauto
    cases body with
    | nil => cases reads with | decimal spells _ => exact absurd rfl spells.1
    | cons c tail =>
      obtain ⟨_, _, whole, isCut⟩ := id isToken
      obtain ⟨rfl, rfl⟩ := List.cons.inj (String.toList_ofList.symm.trans whole)
      have notBar : c ≠ '_' := by
        rintro rfl
        exact absurd (Scan.numeral_of_int isCut).1 (by decide)
      -- What stands behind the first zero is a mark, perhaps with bars in front of it.
      have behind {mark : Char} {digits : List Char}
          (same : (c :: tail).filter (· ≠ '_') = '0' :: mark :: digits) : c = '0' ∧ ∃ bars row,
            tail = bars ++ mark :: row ∧ (∀ d ∈ bars, d = '_') ∧ row.filter (· ≠ '_') = digits := by
        rw [List.filter_cons_of_pos (by simpa using notBar)] at same
        exact ⟨(List.cons.inj same).1, exists_bars (List.cons.inj same).2⟩
      generalize same : (c :: tail).filter (· ≠ '_') = numeral at reads
      cases reads with
      | decimal spells short =>
        subst same
        exact .inl (.decimal ⟨plain, spells⟩ (by simpa using notBar) short named)
      | marked marks spells =>
        obtain ⟨rfl, bars, row, rfl, bar, rfl⟩ := behind same
        rw [List.cons_append, List.append_assoc, List.cons_append]
        by_cases whole : bars = []
        · subst whole
          refine .inl (.marked marks ⟨fun d member => plain d ?_, spells⟩ named)
          simp [member]
        · exact .inr (.intro marks whole bar (.marked marks spells) named)
      | doubled marks repeats spells =>
        obtain ⟨rfl, bars, row, rfl, bar, left⟩ := behind same
        rw [List.cons_append, List.append_assoc, List.cons_append] at isToken ⊢
        by_cases whole : bars = []
        · subst whole
          exact absurd isToken (not_isToken_doubled marks repeats left)
        · refine .inr (.intro marks whole bar ?_ named)
          rw [left]
          exact .doubled marks repeats spells
  · rintro (proper | torn)
    · exact proper.integerLiteral
    · exact torn.integerLiteral

end Text

namespace Annotation

open Text

variable {text : List Char} {tokens : List Token} {n : Nat}

section Bindings

variable (isToken : Lexeme.IsToken ⟨.int, String.ofList text⟩)

include isToken

theorem tokenize_integer : tokenize text = .ok [⟨⟨.int, String.ofList text⟩, 0, text.length⟩] := by
  refine tokenize_eq_ok.mpr ⟨[⟨some .int, text⟩], by simp, ⟨?_, trivial⟩, by simp [Scan.place]⟩
  rwa [Lexeme.IsToken, String.toList_ofList] at isToken

theorem tokenize_binding :
    tokenize ("binding = ".toList ++ text) = .ok [⟨⟨.ident, "binding"⟩, 0, 7⟩,
      ⟨⟨.punct, "="⟩, 8, 9⟩, ⟨⟨.int, String.ofList text⟩, 10, 10 + text.length⟩] := by
  rw [Lexeme.IsToken, String.toList_ofList] at isToken
  refine tokenize_eq_ok.mpr ⟨[⟨some .ident, "binding".toList⟩, ⟨none, [' ']⟩, ⟨some .punct, ['=']⟩,
    ⟨none, [' ']⟩, ⟨some .int, text⟩], ?_, ⟨?_, ?_, ?_, ?_, isToken, trivial⟩, ?_⟩
  · simp
  · exact ⟨'b', "inding".toList, rfl, rfl⟩
  · exact ⟨' ', [], rfl, rfl⟩
  · exact ⟨'=', [], rfl, rfl⟩
  · exact ⟨' ', [], rfl, rfl⟩
  · rfl

/-- A token whose number is not too large binds a method to it. -/
theorem read_binding (reads : IntegerLiteral text n) (small : n < Nat.pow 2 64) :
    read ("binding = ".toList ++ text) .method 0 = .ok ⟨.method,
      [⟨.binding (.number ⟨n, small⟩), some ⟨0, 10 + text.length⟩⟩]⟩ := by
  have meant : Says .binding ⟨.int, String.ofList text⟩ (.binding (.number ⟨n, small⟩)) := by
    refine .binding rfl ?_
    rw [String.toList_ofList]
    exact reads
  have sets : Entry.Sets .method ⟨⟨⟨.ident, "binding"⟩, 0, 7⟩, ⟨⟨.punct, "="⟩, 8, 9⟩, none,
      ⟨⟨.int, String.ofList text⟩, 10, 10 + text.length⟩⟩ (.binding (.number ⟨n, small⟩)) :=
    ⟨rfl, rfl, .binding, .method, by simp [Unsigned], meant⟩
  apply ((settles_read (tokenize_binding isToken) .method 0).ok_iff _).mpr
  exact ⟨_, .last sets, by simp [Entry.span]⟩

/-- Every other token that is an integer is refused as a number. -/
theorem read_binding_refused (none : ∀ n, IntegerLiteral text n → Nat.pow 2 64 ≤ n) :
    read ("binding = ".toList ++ text) .method 0 = .error (.reported (.leaf
      ⟨"invalid numeric value, '" ++ String.ofList text ++ "'", some ⟨0, 10 + text.length⟩, .error,
        some .numericValue⟩)) := by
  have refuses : Refuses .binding ⟨.int, String.ofList text⟩ (.numericValue (String.ofList text)) := by
    refine .binding rfl ?_
    rw [String.toList_ofList]
    exact none
  have amiss (stop : Span) : Amiss .binding 0 stop
      [⟨⟨.int, String.ofList text⟩, 10, 10 + text.length⟩]
      ⟨.numericValue (String.ofList text), ⟨0, 10 + text.length⟩⟩ := by
    have unsigned : Unsigned .binding Option.none := by simp [Unsigned]
    exact Amiss.refused unsigned (fun _ _ => rfl) refuses
  have flawed (stop : Span) : Flawed .method stop [⟨⟨.ident, "binding"⟩, 0, 7⟩,
      ⟨⟨.punct, "="⟩, 8, 9⟩, ⟨⟨.int, String.ofList text⟩, 10, 10 + text.length⟩]
      ⟨.numericValue (String.ofList text), ⟨0, 10 + text.length⟩⟩ :=
    Flawed.value rfl .method rfl (amiss stop)
  apply ((settles_read (tokenize_binding isToken) .method 0).error_iff _).mpr
  refine ⟨_, .entry (flawed _), ?_⟩
  simp only [Nat.cast_zero, Nat.cast_add, Nat.cast_ofNat, add_zero]
  rfl

end Bindings

theorem Lists.exists_entry {target : Target} {settings : List (Setting × Span)}
    (lists : Lists target tokens settings) {found : Setting × Span} (member : found ∈ settings) :
    ∃ entry : Entry, entry.Sets target found.1 ∧ found.2 = entry.span ∧ entry.literal ∈ tokens := by
  induction lists with
  | empty => cases member
  | @last entry setting sets =>
    obtain rfl := List.mem_singleton.mp member
    exact ⟨entry, sets, rfl, by simp [Entry.tokens]⟩
  | @next entry setting comma rest settings sets mark lists ih =>
    obtain rfl | member := List.mem_cons.mp member
    · exact ⟨entry, sets, rfl, by simp [Entry.tokens]⟩
    · obtain ⟨entry, sets, place, among⟩ := ih member
      exact ⟨entry, sets, place, by simp [among]⟩

/-- Every integer literal of the language is one token, and its number is read. It binds a method to
the number, unless the number is too large and therefore refused. -/
theorem proper_integers_bind (proper : Proper text n) :
    tokenize text = .ok [⟨⟨.int, String.ofList text⟩, 0, text.length⟩] ∧ intLiteral text = .ok n ∧
      (∀ small : n < Nat.pow 2 64, read ("binding = ".toList ++ text) .method 0 = .ok ⟨.method,
        [⟨.binding (.number ⟨n, small⟩), some ⟨0, 10 + text.length⟩⟩]⟩) ∧
      (Nat.pow 2 64 ≤ n → read ("binding = ".toList ++ text) .method 0 = .error (.reported (.leaf
        ⟨"invalid numeric value, '" ++ String.ofList text ++ "'", some ⟨0, 10 + text.length⟩,
          .error, some .numericValue⟩))) := by
  have isToken := proper.isToken
  have parts := Lexeme.isWordPart_of_isToken isToken rfl
  rw [String.toList_ofList] at parts
  have value : intLiteral text = .ok n := (intLiteral_eq_ok parts).mpr ⟨n, rfl, proper.integerLiteral⟩
  refine ⟨tokenize_integer isToken, value, read_binding isToken proper.integerLiteral, ?_⟩
  intro large
  apply read_binding_refused isToken
  intro other reads
  have same := (intLiteral_eq_ok parts).mpr ⟨other, rfl, reads⟩
  rw [value, Except.ok.injEq, Int.natCast_inj] at same
  exact same ▸ large

/-- The largest method number in base sixteen, and the number behind it in base ten. -/
theorem proper_integers_bind_largest :
    read "binding = 0xFFFF_ffff__FFFF_ffff_u64".toList .method 0 = .ok ⟨.method,
      [⟨.binding (.number ⟨18446744073709551615, by decide⟩), some ⟨0, 36⟩⟩]⟩ ∧
    read "binding = 18_446_744_073_709_551_616".toList .method 0 = .error (.reported (.leaf
      ⟨"invalid numeric value, '18_446_744_073_709_551_616'", some ⟨0, 36⟩, .error,
        some .numericValue⟩)) := by
  have hexadecimal : Proper ('0' :: 'x' :: ("FFFF_ffff__FFFF_ffff_".toList ++ "u64".toList))
      18446744073709551615 :=
    .marked .hexadecimal ⟨by simp, spells_iff.mpr ⟨by decide, by decide⟩⟩ (.inr (by decide))
  have decimal : Proper ("18_446_744_073_709_551_616".toList ++ []) 18446744073709551616 :=
    .decimal ⟨by simp, spells_iff.mpr ⟨by decide, by decide⟩⟩ (by decide) (by decide)
      (.inl rfl)
  exact ⟨(proper_integers_bind hexadecimal).2.2.1 (by decide),
    (proper_integers_bind decimal).2.2.2 (by decide)⟩

/-- The tokens that are integers and whose numbers are read are the integer literals of the language
and the literals with a torn mark. Every method number that an annotation sets is the number of such
a token, and all other tokens that are integers are refused as numbers. -/
theorem integers_accepted (tokenized : tokenize text = .ok tokens) :
    (∀ token ∈ tokens, token.kind = .int →
      (∀ value, intLiteral token.text.toList = .ok value ↔ ∃ n : Nat, value = n ∧
        (Proper token.text.toList n ∨ Torn token.text.toList n)) ∧
      ((∀ n, Proper token.text.toList n ∨ Torn token.text.toList n → Nat.pow 2 64 ≤ n) →
        read ("binding = ".toList ++ token.text.toList) .method 0 = .error (.reported (.leaf
          ⟨"invalid numeric value, '" ++ token.text ++ "'",
            some ⟨0, 10 + token.text.toList.length⟩, .error, some .numericValue⟩)))) ∧
    ∀ target offset marks, read text target offset = .ok marks → ∀ directive ∈ marks.directives,
      ∀ number, directive.setting = .binding (.number number) → ∃ token ∈ tokens,
        token.kind = .int ∧
        (Proper token.text.toList number.value ∨ Torn token.text.toList number.value) ∧
        ∃ start, directive.place = some ⟨start, token.stop + offset⟩ := by
  have isToken : ∀ token ∈ tokens, token.kind = .int →
      Lexeme.IsToken ⟨.int, String.ofList token.text.toList⟩ := by
    intro token member int
    have reads := Scan.reads_iff_tokenize.mpr ⟨tokens, tokenized, rfl⟩
    have isToken := reads.isToken _ (List.mem_map_of_mem member)
    rw [String.ofList_toList, ← int]
    exact isToken
  constructor
  · intro token member int
    replace isToken := isToken token member int
    have parts := Lexeme.isWordPart_of_isToken isToken rfl
    rw [String.toList_ofList] at parts
    constructor
    · intro value
      simp only [intLiteral_eq_ok parts, integerLiteral_of_isToken isToken]
    · intro none
      have refused := read_binding_refused isToken fun n reads =>
        none n ((integerLiteral_of_isToken isToken).mp reads)
      rwa [String.ofList_toList] at refused
  · intro target offset marks read directive member number sets
    obtain ⟨settings, lists, rfl⟩ := ((settles_read tokenized target offset).ok_iff marks).mp read
    obtain ⟨found, among, rfl⟩ := List.mem_map.mp member
    obtain ⟨entry, ⟨-, -, key, -, -, meant⟩, place, inside⟩ := lists.exists_entry among
    obtain ⟨setting, span⟩ := found
    cases sets
    cases meant with
    | binding int reads =>
      refine ⟨entry.literal, inside, int, ?_, ⟨_, by rw [place]; rfl⟩⟩
      exact (integerLiteral_of_isToken (isToken _ inside int)).mp reads

/-- Of two integers one is a literal of the language, and the other has no digits of its base. -/
theorem integers_accepted_pair :
    tokenize "7_u8 0xg".toList = .ok [⟨⟨.int, "7_u8"⟩, 0, 4⟩, ⟨⟨.int, "0xg"⟩, 5, 8⟩] ∧
      intLiteral "7_u8".toList = .ok 7 ∧ read "binding = 0xg".toList .method 0 = .error (.reported
        (.leaf ⟨"invalid numeric value, '0xg'", some ⟨0, 13⟩, .error, some .numericValue⟩)) := by
  have tokenized : tokenize "7_u8 0xg".toList =
      .ok [⟨⟨.int, "7_u8"⟩, 0, 4⟩, ⟨⟨.int, "0xg"⟩, 5, 8⟩] := rfl
  obtain ⟨accepted, -⟩ := integers_accepted tokenized
  obtain ⟨seven, -⟩ := accepted _ List.mem_cons_self rfl
  obtain ⟨none, refused⟩ := accepted _ (List.mem_cons_of_mem _ List.mem_cons_self) rfl
  have proper : Proper (['7', '_'] ++ ['u', '8']) 7 :=
    .decimal ⟨by simp, spells_iff.mpr ⟨by decide, by decide⟩⟩ (by decide) (by decide)
      (.inr (by decide))
  refine ⟨tokenized, (seven 7).mpr ⟨7, rfl, .inl proper⟩, refused ?_⟩
  intro n reads
  cases (none n).mpr ⟨n, rfl, reads⟩

/-- A literal with a torn mark is no integer literal of the language, but it binds a method. -/
theorem torn_integer_binds : tokenize "0_x10".toList = .ok [⟨⟨.int, "0_x10"⟩, 0, 5⟩] ∧
    intLiteral "0_x10".toList = .ok 16 ∧ read "binding = 0_x10".toList .method 0 =
      .ok ⟨.method, [⟨.binding (.number ⟨16, by decide⟩), some ⟨0, 15⟩⟩]⟩ ∧
    ∀ n, ¬Proper "0_x10".toList n := by
  refine ⟨rfl, rfl, rfl, ?_⟩
  intro n proper
  have letters : "0_x10".toList = ['0', '_', 'x', '1', '0'] := rfl
  rw [letters] at proper
  generalize whole : ['0', '_', 'x', '1', '0'] = text at proper
  cases proper with
  | @decimal row suffix _ reads _ _ named =>
    obtain rfl | among := named
    · have digit := isDigitOf_of_spells reads.spells 'x' (by simp [← whole.trans (List.append_nil row)])
      exact absurd digit (by decide)
    · have apart : ∀ suffix ∈ intSuffixes, ¬suffix <:+ ['0', '_', 'x', '1', '0'] := by decide
      exact apart suffix among (whole ▸ List.suffix_append row suffix)
  | marked marks _ _ =>
    obtain ⟨bar, -⟩ := List.cons.inj (List.cons.inj whole).2
    exact marks.ne_bar bar.symm

end Annotation

end ActorGlue
