import ActorGlue.Proofs.Token.Words

/-!
# What integer literals stand for

An integer literal is a numeral, with bars anywhere and perhaps with the name of an integer type
behind it. A numeral is a row of digits of a base, which a mark in front of them tells if it is not
ten. The value of a literal is read exactly if the literal has this form.
-/

namespace ActorGlue.Text

section Definitions

/-- The digits spell a number in a base, the highest of them first. -/
def Spells (base : Nat) (digits : List Char) (n : Nat) : Prop :=
  digits ≠ [] ∧ ∃ values, n = Nat.ofDigits base values.reverse ∧
    List.Forall₂ (fun c value => digitValue? c = some value ∧ value < base) digits values

/-- The bases that are told by a mark, each with the letter of its mark. -/
inductive Marked : Nat → Char → Prop where
  | hexadecimal : Marked 16 'x'
  | octal : Marked 8 'o'
  | binary : Marked 2 'b'

/-- A numeral without bars and the number it stands for. A decimal one has to be short, and behind
the mark of a base the same mark may stand once more, also with a capital letter. -/
inductive Numeral : List Char → Nat → Prop where
  | decimal {digits : List Char} {n : Nat} (spells : Spells 10 digits n)
      (short : digits.length ≤ maxDecimalDigits) : Numeral digits n
  | marked {base n : Nat} {mark : Char} {digits : List Char} (marks : Marked base mark)
      (spells : Spells base digits n) : Numeral ('0' :: mark :: digits) n
  | doubled {base n : Nat} {mark again : Char} {digits : List Char} (marks : Marked base mark)
      (same : again = mark ∨ again = mark.toUpper) (spells : Spells base digits n) :
      Numeral ('0' :: mark :: '0' :: again :: digits) n

/-- An integer literal and the number it stands for: a numeral, in which bars do not count, and
perhaps the name of an integer type. -/
def IntegerLiteral (text : List Char) (n : Nat) : Prop :=
  ∃ body suffix, text = body ++ suffix ∧ (suffix = [] ∨ suffix ∈ intSuffixes) ∧
    Numeral (body.filter (· ≠ '_')) n

end Definitions

variable {c mark : Char}

section Digits

variable {base : Nat} {digits : List Char} {n : Nat}

theorem foldl_digitStep_none (digits : List Char) :
    digits.foldl (digitStep base) none = none := by
  induction digits with
  | nil => rfl
  | cons c digits ih => exact ih

theorem digitStep_eq_some {first : Nat} :
    digitStep base (some first) c = some n ↔
      ∃ value, (digitValue? c = some value ∧ value < base) ∧ base * first + value = n := by
  simp only [digitStep, Option.bind_eq_bind, Option.bind_some]
  cases digitValue? c with
  | none => simp
  | some value =>
    simp only [Option.bind_some, Option.some.injEq]
    constructor
    · intro h
      split_ifs at h with small
      exact ⟨value, ⟨rfl, small⟩, Option.some.inj h⟩
    · rintro ⟨_, ⟨rfl, small⟩, rfl⟩
      rw [if_pos small]

theorem foldl_digitStep {first : Nat} :
    digits.foldl (digitStep base) (some first) = some n ↔ ∃ values,
      n = first * base ^ values.length + Nat.ofDigits base values.reverse ∧
        List.Forall₂ (fun c value => digitValue? c = some value ∧ value < base) digits values := by
  induction digits generalizing first with
  | nil => simp [eq_comm]
  | cons c digits ih =>
    rw [List.foldl_cons]
    cases step : digitStep base (some first) c with
    | none =>
      rw [foldl_digitStep_none]
      simp only [reduceCtorEq, false_iff]
      rintro ⟨_, _, all⟩
      cases all with
      | cons digit _ =>
        rw [digitStep_eq_some.mpr ⟨_, digit, rfl⟩] at step
        cases step
    | some next =>
      obtain ⟨value, digit, rfl⟩ := digitStep_eq_some.mp step
      rw [ih]
      constructor
      · rintro ⟨values, rfl, all⟩
        refine ⟨value :: values, ?_, .cons digit all⟩
        rw [List.reverse_cons, Nat.ofDigits_append, List.length_reverse, Nat.ofDigits_singleton,
          List.length_cons]
        ring
      · rintro ⟨_, rfl, all⟩
        cases all with
        | @cons _ other _ values digit' all =>
          obtain rfl : value = other := Option.some.inj (digit.1.symm.trans digit'.1)
          refine ⟨values, ?_, all⟩
          rw [List.reverse_cons, Nat.ofDigits_append, List.length_reverse,
            Nat.ofDigits_singleton, List.length_cons]
          ring

theorem spells_iff : Spells base digits n ↔ digits ≠ [] ∧ digitsValue? base digits = some n := by
  rw [digitsValue?, foldl_digitStep]
  simp only [Nat.zero_mul, Nat.zero_add]
  rfl

theorem isDigitOf_of_spells (spells : Spells base digits n) : ∀ c ∈ digits, isDigitOf base c := by
  obtain ⟨-, values, -, all⟩ := spells
  induction all with
  | nil => simp
  | cons digit _ ih =>
    refine List.forall_mem_cons.mpr ⟨?_, ih⟩
    simp [isDigitOf, digit.1, digit.2]

end Digits

section Words

/-! ## Numerals of letters and digits -/

variable {base n : Nat} {text : List Char}

theorem isPlainBlank_of_isWordPart (word : Scan.isWordPart c) : isPlainBlank c = false := by
  rw [isPlainBlank, Scan.isBlank_of_isWordPart word, Bool.false_and]

theorem dropBaseMark_subset (base : Nat) (text : List Char) : dropBaseMark base text ⊆ text := by
  unfold dropBaseMark
  split
  · split_ifs
    · intro c member
      exact List.mem_cons_of_mem _ (List.mem_cons_of_mem _ member)
    · exact List.Subset.refl _
  · exact List.Subset.refl _

theorem splitSign_of_word (word : ∀ c ∈ text, Scan.isWordPart c) :
    splitSign (text.dropWhile isPlainBlank) = (false, text) := by
  cases text with
  | nil => rfl
  | cons c text =>
    have part := word c List.mem_cons_self
    rw [List.dropWhile_cons, isPlainBlank_of_isWordPart part, if_neg Bool.false_ne_true]
    unfold splitSign
    split
    · rename_i same
      cases same
      exact absurd part (by decide)
    · rename_i same
      cases same
      exact absurd part (by decide)
    · rfl

/-- A text of letters and digits is read as the number that its digits spell behind the mark. -/
theorem readNumeral_eq_ok {value : Int} (word : ∀ c ∈ text, Scan.isWordPart c) :
    readNumeral base text = .ok value ↔ ∃ n : Nat, value = n ∧
      Spells base (dropBaseMark base text) n ∧
        (base = 10 → (dropBaseMark base text).length ≤ maxDecimalDigits) := by
  simp only [readNumeral, splitSign_of_word word]
  have inside : ∀ c ∈ dropBaseMark base text, Scan.isWordPart c := fun c member =>
    word c (dropBaseMark_subset base text member)
  generalize dropBaseMark base text = marked at inside ⊢
  by_cases digits : ∀ c ∈ marked, isDigitOf base c
  · have all : marked.takeWhile (isDigitOf base) = marked := List.takeWhile_eq_self_iff.mpr digits
    have none : marked.dropWhile (isDigitOf base) = [] := List.dropWhile_eq_nil_iff.mpr digits
    simp only [all, none, spells_iff]
    by_cases long : base = 10 ∧ maxDecimalDigits < marked.length
    · simp [long]
    · have short : base = 10 → marked.length ≤ maxDecimalDigits := by
        intro ten
        by_contra more
        exact long ⟨ten, by omega⟩
      rw [if_neg (by simpa using long)]
      simp only [and_iff_left short]
      cases marked with
      | nil => simp
      | cons c marked => cases digitsValue? base (c :: marked) <;> simp [eq_comm]
  · obtain ⟨c, rest, left⟩ : ∃ c rest, marked.dropWhile (isDigitOf base) = c :: rest := by
      apply List.exists_cons_of_ne_nil
      simpa [List.dropWhile_eq_nil_iff] using digits
    have part : Scan.isWordPart c := by
      apply inside
      have member : c ∈ marked.dropWhile (isDigitOf base) := left ▸ List.mem_cons_self
      exact (List.dropWhile_suffix _).mem member
    have unread (n : Nat) : ¬Spells base marked n := fun spells =>
      digits (isDigitOf_of_spells spells)
    simp only [left, List.all_cons, isPlainBlank_of_isWordPart part, Bool.false_and,
      Bool.false_eq_true, if_false, unread, false_and, and_false, exists_false, iff_false]
    split_ifs
    · simp
    · split <;> simp

/-- The letters of a mark are those that may be repeated behind it. -/
theorem Marked.baseMarks (marks : Marked base mark) : baseMarks base = [mark, mark.toUpper] := by
  cases marks <;> rfl

theorem Marked.not_isDigitOf {again : Char} (marks : Marked base mark)
    (same : again = mark ∨ again = mark.toUpper) : isDigitOf base again = false := by
  cases marks <;> obtain rfl | rfl := same <;> decide

theorem decimalValue?_zero (word : Scan.isWordPart c) : decimalValue? c = some 0 ↔ c = '0' := by
  constructor
  · intro value
    obtain ⟨start, found, same⟩ := Option.map_eq_some_iff.mp value
    have codes := Scan.toNat_of_isWordPart word
    have below : start ≤ c.toNat := by
      have holds := List.find?_some found
      simp only [Bool.and_eq_true, decide_eq_true_eq] at holds
      exact holds.1
    have first : ∀ start ∈ decimalZeros, start ≤ 122 → start = '0'.toNat := by decide
    have start_eq := first start (List.mem_of_find?_eq_some found) (by omega)
    apply Char.toNat_inj.mp
    omega
  · rintro rfl
    decide

/-- Behind a mark the digits are read with or without the same mark once more. -/
theorem spells_dropBaseMark (marks : Marked base mark) (word : ∀ c ∈ text, Scan.isWordPart c) :
    Spells base (dropBaseMark base text) n ↔ Spells base text n ∨
      ∃ again rest, text = '0' :: again :: rest ∧ (again = mark ∨ again = mark.toUpper) ∧
        Spells base rest n := by
  by_cases doubled : ∃ again rest, text = '0' :: again :: rest ∧
      (again = mark ∨ again = mark.toUpper)
  · obtain ⟨again, rest, rfl, same⟩ := doubled
    have dropped : dropBaseMark base ('0' :: again :: rest) = rest := by
      have zero : decimalValue? '0' = some 0 := by decide
      simp [dropBaseMark, zero, marks.baseMarks, same]
    have unread : ¬Spells base ('0' :: again :: rest) n := by
      intro spells
      have digit := isDigitOf_of_spells spells again (by simp)
      rw [marks.not_isDigitOf same] at digit
      cases digit
    rw [dropped]
    constructor
    · intro spells
      exact .inr ⟨again, rest, rfl, same, spells⟩
    · rintro (spells | ⟨_, _, whole, -, spells⟩)
      · exact absurd spells unread
      · cases whole
        exact spells
  · have kept : dropBaseMark base text = text := by
      unfold dropBaseMark
      split
      · rename_i zero again rest
        rw [if_neg]
        intro drops
        rw [Bool.and_eq_true, decide_eq_true_eq, decimalValue?_zero (word zero (by simp)),
          marks.baseMarks] at drops
        obtain ⟨rfl, among⟩ := drops
        exact doubled ⟨again, rest, rfl, by simpa using among⟩
      · rfl
    rw [kept]
    constructor
    · exact .inl
    · rintro (spells | ⟨again, rest, whole, same, -⟩)
      · exact spells
      · exact absurd ⟨again, rest, whole, same⟩ doubled

theorem numeral_marked (marks : Marked base mark) (word : ∀ c ∈ text, Scan.isWordPart c) :
    Numeral ('0' :: mark :: text) n ↔ Spells base (dropBaseMark base text) n := by
  rw [spells_dropBaseMark marks word]
  constructor
  · generalize whole : '0' :: mark :: text = numeral
    intro reads
    cases reads with
    | decimal spells _ =>
      subst whole
      have digit := isDigitOf_of_spells spells mark (by simp)
      cases marks <;> exact absurd digit (by decide)
    | marked marks' spells =>
      cases whole
      cases marks <;> cases marks' <;> exact .inl spells
    | doubled marks' same spells =>
      cases whole
      cases marks <;> cases marks' <;> exact .inr ⟨_, _, rfl, same, spells⟩
  · rintro (spells | ⟨again, rest, rfl, same, spells⟩)
    · exact .marked marks spells
    · exact .doubled marks same spells

theorem numeral_decimal (unmarked : ∀ mark rest, text = '0' :: mark :: rest →
    mark ≠ 'x' ∧ mark ≠ 'o' ∧ mark ≠ 'b') :
    Numeral text n ↔ Spells 10 text n ∧ text.length ≤ maxDecimalDigits := by
  constructor
  · intro reads
    cases reads with
    | decimal spells short => exact ⟨spells, short⟩
    | marked marks _ | doubled marks _ _ =>
      obtain ⟨notX, notO, notB⟩ := unmarked _ _ rfl
      cases marks <;> contradiction
  · rintro ⟨spells, short⟩
    exact .decimal spells short

theorem dropBaseMark_decimal (digits : List Char) : dropBaseMark 10 digits = digits := by
  unfold dropBaseMark
  split
  · simp [baseMarks]
  · rfl

/-- Neither of the letters that begin the name of an integer type is part of a numeral. -/
theorem Numeral.ne_suffixSign (reads : Numeral text n) : ∀ c ∈ text, c ≠ 'i' ∧ c ≠ 'u' := by
  have digit {base : Nat} {digits : List Char} (among : base ∈ [2, 8, 10, 16])
      (spells : Spells base digits n) (c : Char) (member : c ∈ digits) : c ≠ 'i' ∧ c ≠ 'u' := by
    have isDigit := isDigitOf_of_spells spells c member
    have noDigit : ∀ base ∈ [2, 8, 10, 16], ¬isDigitOf base 'i' ∧ ¬isDigitOf base 'u' := by decide
    constructor
    · rintro rfl
      exact (noDigit base among).1 isDigit
    · rintro rfl
      exact (noDigit base among).2 isDigit
  cases reads with
  | decimal spells _ => exact digit (by decide) spells
  | marked marks spells =>
    intro c member
    cases marks <;> simp only [List.mem_cons] at member <;>
      obtain rfl | rfl | member := member <;>
      first
      | decide
      | exact digit (by decide) spells c member
  | doubled marks same spells =>
    intro c member
    cases marks <;> obtain rfl | rfl := same <;> simp only [List.mem_cons] at member <;>
      obtain rfl | rfl | rfl | rfl | member := member <;>
      first
      | decide
      | exact digit (by decide) spells c member

theorem dropIntSuffix_of_word (word : ∀ c ∈ text, Scan.isWordPart c) :
    dropIntSuffix text = dropSuffixAtEnd text := by
  unfold dropIntSuffix
  split
  · rename_i last
    exact absurd (word '\n' (List.mem_of_getLast? last)) (by decide)
  · rfl

theorem intSuffixes_apart : ∀ one ∈ intSuffixes, ∀ other ∈ intSuffixes, one <:+ other →
    one = other := by
  decide

/-- What is left of a literal when the name of a type is dropped is the numeral in it. -/
theorem integerLiteral_iff (word : ∀ c ∈ text, Scan.isWordPart c) :
    IntegerLiteral text n ↔ Numeral ((dropIntSuffix text).filter (· ≠ '_')) n := by
  rw [dropIntSuffix_of_word word, dropSuffixAtEnd]
  constructor
  · rintro ⟨body, suffix, rfl, rfl | among, reads⟩
    · have bare : intSuffixes.find? (fun suffix => suffix.isSuffixOf (body ++ [])) = none := by
        rw [List.find?_eq_none]
        intro suffix among ends
        rw [List.append_nil, List.isSuffixOf_iff_suffix] at ends
        simp only [intSuffixes, List.mem_flatMap, List.mem_map] at among
        obtain ⟨sign, isSign, width, -, rfl⟩ := among
        simp only [List.mem_cons, List.not_mem_nil, or_false] at isSign
        have kept : sign ≠ '_' := by obtain rfl | rfl := isSign <;> decide
        have inside : sign ∈ body.filter (· ≠ '_') :=
          List.mem_filter.mpr ⟨ends.mem List.mem_cons_self, by simpa using kept⟩
        have apart := reads.ne_suffixSign sign inside
        exact isSign.elim apart.1 apart.2
      rw [bare, List.append_nil]
      exact reads
    · have found : intSuffixes.find? (fun other => other.isSuffixOf (body ++ suffix)) =
          some suffix := by
        cases find : intSuffixes.find? (fun other => other.isSuffixOf (body ++ suffix)) with
        | none =>
          have fails := List.find?_eq_none.mp find suffix among
          exact absurd (List.isSuffixOf_iff_suffix.mpr (List.suffix_append body suffix)) fails
        | some other =>
          have ends : other <:+ body ++ suffix := List.isSuffixOf_iff_suffix.mp (by
            simpa using List.find?_some find)
          have member := List.mem_of_find?_eq_some find
          obtain longer | longer := List.suffix_or_suffix_of_suffix ends
            (List.suffix_append body suffix)
          · rw [intSuffixes_apart other member suffix among longer]
          · rw [intSuffixes_apart suffix among other member longer]
      rw [found]
      simpa using reads
  · intro reads
    cases find : intSuffixes.find? (fun other => other.isSuffixOf text) with
    | none =>
      rw [find] at reads
      exact ⟨text, [], (List.append_nil text).symm, .inl rfl, reads⟩
    | some suffix =>
      rw [find] at reads
      obtain ⟨body, rfl⟩ : suffix <:+ text := List.isSuffixOf_iff_suffix.mp (by
        simpa using List.find?_some find)
      refine ⟨body, suffix, rfl, .inr (List.mem_of_find?_eq_some find), ?_⟩
      simpa using reads

theorem dropSuffixAtEnd_subset (text : List Char) : dropSuffixAtEnd text ⊆ text := by
  unfold dropSuffixAtEnd
  split
  · exact List.take_subset _ _
  · exact List.Subset.refl _

/-- The value of a text of letters and digits is read exactly if it is an integer literal. -/
theorem intLiteral_eq_ok {value : Int} (word : ∀ c ∈ text, Scan.isWordPart c) :
    intLiteral text = .ok value ↔ ∃ n : Nat, value = n ∧ IntegerLiteral text n := by
  simp only [integerLiteral_iff word]
  have inside : ∀ c ∈ (dropIntSuffix text).filter (· ≠ '_'), Scan.isWordPart c := by
    intro c member
    rw [dropIntSuffix_of_word word] at member
    exact word c (dropSuffixAtEnd_subset text (List.mem_of_mem_filter member))
  unfold intLiteral
  generalize (dropIntSuffix text).filter (· ≠ '_') = numeral at inside ⊢
  have based {base : Nat} {mark : Char} {digits : List Char} (marks : Marked base mark)
      (whole : numeral = '0' :: mark :: digits) :
      readNumeral base digits = .ok value ↔
        ∃ n : Nat, value = n ∧ Numeral ('0' :: mark :: digits) n := by
    have word : ∀ c ∈ digits, Scan.isWordPart c := fun c member => inside c (by simp [whole, member])
    have other : base ≠ 10 := by cases marks <;> decide
    simp [readNumeral_eq_ok word, numeral_marked marks word, other]
  split
  · exact based .hexadecimal rfl
  · exact based .octal rfl
  · exact based .binary rfl
  · rename_i notX notO notB
    rw [readNumeral_eq_ok inside, dropBaseMark_decimal]
    have unmarked : ∀ mark rest, numeral = '0' :: mark :: rest →
        mark ≠ 'x' ∧ mark ≠ 'o' ∧ mark ≠ 'b' := by
      rintro mark rest rfl
      refine ⟨?_, ?_, ?_⟩ <;> rintro rfl
      · exact notX rest rfl
      · exact notO rest rfl
      · exact notB rest rfl
    simp [numeral_decimal unmarked]

end Words

end ActorGlue.Text

namespace ActorGlue.Scan

/-! ## Tokens that are integer literals -/
variable {text : List Char} {c : Char} {rest : List Char}

/-- As many characters as hold at the front are those that hold. -/
theorem of_mem_take_takeWhile {holds : Char → Bool} :
    ∀ c ∈ text.take (text.takeWhile holds).length, holds c := by
  rw [← List.prefix_iff_eq_take.mp (List.takeWhile_prefix holds)]
  intro c member
  exact List.mem_takeWhile_imp member

theorem drop_takeWhile_length (holds : Char → Bool) (text : List Char) :
    text.drop (text.takeWhile holds).length = text.dropWhile holds := by
  have whole : text.takeWhile holds ++ text.dropWhile holds = text :=
    List.takeWhile_append_dropWhile
  calc
    text.drop (text.takeWhile holds).length =
        (text.takeWhile holds ++ text.dropWhile holds).drop (text.takeWhile holds).length := by
      rw [whole]
    _ = text.dropWhile holds := List.drop_left

theorem isWordPart_of_isDigitOrBar (digit : isDigitOrBar c) : isWordPart c := by
  simp only [isDigitOrBar, isWordPart, isWordStart, Bool.or_eq_true, decide_eq_true_eq] at digit ⊢
  tauto

theorem isWordPart_of_plainWord : ∀ c ∈ text.take (plainWordWidth text), isWordPart c := by
  intro c member
  cases text with
  | nil => simp at member
  | cons first rest =>
    unfold plainWordWidth at member
    dsimp only at member
    split_ifs at member with start
    · rw [Nat.add_comm, List.take_succ_cons, List.mem_cons] at member
      rcases member with rfl | member
      · simp [isWordPart, start]
      · exact of_mem_take_takeWhile c member
    · simp at member

theorem isWordPart_of_suffix : ∀ c ∈ text.take (suffixWidth text), isWordPart c := by
  unfold suffixWidth
  split
  · rename_i suffix found
    obtain ⟨rest, rfl⟩ : suffix <+: text := List.isPrefixOf_iff_prefix.mp (by
      simpa using List.find?_some found)
    have parts : Text.intSuffixes.all (·.all isWordPart) := by decide
    rw [List.take_left]
    exact List.all_eq_true.mp (List.all_eq_true.mp parts suffix (List.mem_of_find?_eq_some found))
  · simp

theorem isWordPart_of_based {width : Nat} (based : basedWidth? text = some width) :
    ∀ c ∈ text.take width, isWordPart c := by
  unfold basedWidth? at based
  split at based
  · rename_i mark rest
    simp only [bind, Option.bind_eq_some_iff] at based
    obtain ⟨isDigit, marks, based⟩ := based
    split at based <;> cases based
    have isMark : isWordPart mark := by
      unfold basedDigit at marks
      split_ifs at marks with hex octal binary
      · rw [hex]; decide
      · rw [octal]; decide
      · rw [binary]; decide
    have digit : ∀ c, (isDigit c || decide (c = '_')) → isWordPart c := by
      intro c digit
      rw [Bool.or_eq_true, decide_eq_true_eq] at digit
      obtain digit | rfl := digit
      · exact isWordPart_of_basedDigit marks digit
      · decide
    rw [Nat.add_assoc, Nat.add_comm 2, List.take_succ_cons, List.take_succ_cons, List.take_add]
    simp only [List.mem_cons, List.mem_append]
    rintro c (rfl | rfl | member | member)
    · decide
    · exact isMark
    · exact digit c (of_mem_take_takeWhile c member)
    · exact isWordPart_of_suffix c member
  · cases based

/-- What begins a fraction or an exponent. -/
def isFloatMark (c : Char) : Bool :=
  c = '.' || c = 'e' || c = 'E'

theorem isFloatMark_apart (mark : isFloatMark c) :
    isDigitOrBar c = false ∧ basedDigit c = none := by
  simp only [isFloatMark, Bool.or_eq_true, decide_eq_true_eq] at mark
  obtain (rfl | rfl) | rfl := mark <;> decide

theorem isDigitOrBar_of_basedDigit {mark : Char} {isDigit : Char → Bool}
    (based : basedDigit mark = some isDigit) : isDigitOrBar mark = false := by
  unfold basedDigit at based
  split_ifs at based with hex octal binary
  · rw [hex]; decide
  · rw [octal]; decide
  · rw [binary]; decide

theorem numeralKind_of_floatMark {numeral more : List Char} (mark : isFloatMark c)
    (front : numeral.dropWhile isDigitOrBar = c :: more) : numeralKind numeral = .float := by
  have form : hasFloatForm numeral := by
    rw [hasFloatForm, front]
    exact mark
  have unmarked : hasBaseMark numeral = false := by
    unfold hasBaseMark
    split
    · rename_i other rest
      cases based : basedDigit other with
      | none => rfl
      | some isDigit =>
        have zero : isDigitOrBar '0' := by decide
        rw [List.dropWhile_cons, if_pos zero, List.dropWhile_cons,
          if_neg (by simp [isDigitOrBar_of_basedDigit based])] at front
        rw [(List.cons.inj front).1, (isFloatMark_apart mark).2] at based
        cases based
    · rfl
  simp [numeralKind, form, unmarked]

theorem floatMark_of_width (float : fractionWidth text + exponentWidth text ≠ 0) :
    ∃ c more, text = c :: more ∧ isFloatMark c := by
  cases text with
  | nil => exact absurd rfl float
  | cons c more =>
    refine ⟨c, more, rfl, ?_⟩
    by_contra other
    simp only [isFloatMark, Bool.or_eq_true, decide_eq_true_eq, not_or] at other
    obtain ⟨⟨point, small⟩, capital⟩ := other
    simp [fractionWidth_of_ne point, exponentWidth, small, capital] at float

/-- Behind the leading digits of an integer literal there is no more than a word. -/
theorem decimalWidth_of_int (int : numeralKind (text.take (decimalWidth text)) = .int) :
    decimalWidth text = (text.takeWhile isDigitOrBar).length +
      plainWordWidth (text.dropWhile isDigitOrBar) := by
  by_cases float : fractionWidth (text.dropWhile isDigitOrBar) +
      exponentWidth (text.dropWhile isDigitOrBar) = 0
  · simp only [decimalWidth, drop_takeWhile_length]
    obtain ⟨fraction, exponent⟩ := Nat.add_eq_zero_iff.mp float
    rw [fraction, Nat.add_zero, drop_takeWhile_length, exponent, Nat.add_zero,
      drop_takeWhile_length]
  · obtain ⟨c, more, behind, mark⟩ := floatMark_of_width float
    have longer : (text.takeWhile isDigitOrBar).length < decimalWidth text := by
      simp only [decimalWidth, drop_takeWhile_length]
      by_cases fraction : fractionWidth (text.dropWhile isDigitOrBar) = 0
      · rw [fraction, Nat.add_zero, drop_takeWhile_length]
        omega
      · omega
    obtain ⟨width, wide⟩ := Nat.exists_eq_add_of_lt longer
    have front : (text.take (decimalWidth text)).dropWhile isDigitOrBar = c :: more.take width := by
      rw [wide, Nat.add_assoc, List.take_add, drop_takeWhile_length, behind, List.take_succ_cons,
        List.dropWhile_append_of_pos of_mem_take_takeWhile, List.dropWhile_cons,
        if_neg (by simp [(isFloatMark_apart mark).1])]
    rw [numeralKind_of_floatMark mark front] at int
    cases int

theorem isWordPart_of_numeral (int : numeralKind (text.take (numeralWidth text)) = .int) :
    ∀ c ∈ text.take (numeralWidth text), isWordPart c := by
  cases based : basedWidth? text with
  | some width =>
    rw [numeralWidth, based]
    exact isWordPart_of_based based
  | none =>
    have width : numeralWidth text = decimalWidth text := by rw [numeralWidth, based]; rfl
    rw [width] at int ⊢
    rw [decimalWidth_of_int int, List.take_add, drop_takeWhile_length]
    intro c member
    obtain digit | word := List.mem_append.mp member
    · exact isWordPart_of_isDigitOrBar (of_mem_take_takeWhile c digit)
    · exact isWordPart_of_plainWord c word

/-- A token that is an integer literal is a numeral. -/
theorem numeral_of_int {more : Nat} (h : cut c rest = .ok ⟨some .int, more⟩) :
    c.isDigit ∧ numeralKind ((c :: rest).take (numeralWidth (c :: rest))) = .int ∧
      more = numeralWidth (c :: rest) - 1 := by
  obtain ⟨-, -, plain⟩ := cutPlain_of_kind (by decide) h
  unfold cutPlain at plain
  dsimp only at plain
  split_ifs at plain with digit foreign word mark
  · simp only [Except.ok.injEq, Cut.mk.injEq, Option.some.injEq] at plain
    exact ⟨digit, plain.1, plain.2.symm⟩
  · cases plain
  · cases plain

/-- A token that is an integer literal is made of word characters. -/
theorem isWordPart_of_int {more : Nat} (h : cut c rest = .ok ⟨some .int, more⟩) :
    ∀ d ∈ c :: rest.take more, isWordPart d := by
  obtain ⟨digit, kind, rfl⟩ := numeral_of_int h
  have parts := isWordPart_of_numeral kind
  intro d member
  obtain rfl | member := List.mem_cons.mp member
  · simp [isWordPart, digit]
  · apply parts
    cases width : numeralWidth (c :: rest) with
    | zero => simp [width] at member
    | succ more =>
      rw [width, Nat.add_sub_cancel] at member
      exact List.mem_cons_of_mem _ member

end ActorGlue.Scan

theorem ActorGlue.Lexeme.isWordPart_of_isToken {lexeme : Lexeme} (isToken : lexeme.IsToken)
    (int : lexeme.kind = .int) : ∀ c ∈ lexeme.text.toList, Scan.isWordPart c := by
  obtain ⟨c, more, text, isCut⟩ := isToken
  replace text : lexeme.text.toList = c :: more := text
  rw [List.append_nil, int] at isCut
  have parts := Scan.isWordPart_of_int isCut
  rw [List.take_length] at parts
  rw [text]
  exact parts
