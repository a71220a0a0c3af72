import ActorGlue.Proofs.Token.Written

/-!
# Words and numerals

A word that is read is made of word characters behind its raw mark, if it has one. Names that are
made of word characters behind a letter are words again, and decimal digits are a numeral.
-/

namespace ActorGlue

variable {rest : List Char} {c : Char} {text : List Char}

def IsWord (text : String) : Prop :=
  Lexeme.IsToken ⟨.ident, text⟩

theorem isWord_of_ident {lexeme : Lexeme} (isToken : lexeme.IsToken)
    (word : lexeme.kind = .ident) : IsWord lexeme.text := by
  obtain ⟨kind, text⟩ := lexeme
  subst word
  exact isToken

namespace Scan

theorem wordWidth_of_ident {more : Nat} (h : cut c rest = .ok ⟨some .ident, more⟩) :
    wordWidth (c :: rest) = more + 1 := by
  obtain ⟨-, -, plain⟩ := cutPlain_of_kind (by decide) h
  unfold cutPlain at plain
  dsimp only at plain
  split_ifs at plain with digit foreign word mark
  · simp only [Except.ok.injEq, Cut.mk.injEq, Option.some.injEq, numeralKind] at plain
    split_ifs at plain <;> cases plain.1
  · simp only [Except.ok.injEq, Cut.mk.injEq, true_and] at plain
    omega
  · cases plain

theorem parts_of_plainWordWidth (whole : plainWordWidth text = text.length) :
    ∀ c ∈ text, isWordPart c := by
  cases text with
  | nil => simp
  | cons c rest =>
    unfold plainWordWidth at whole
    dsimp only at whole
    split_ifs at whole with start
    · have all : rest.takeWhile isWordPart = rest :=
        (List.takeWhile_prefix _).eq_of_length (by simpa [Nat.add_comm] using whole)
      have parts := List.takeWhile_eq_self_iff.mp all
      exact List.forall_mem_cons.mpr ⟨by simp [isWordPart, start], parts⟩

/-- Behind its raw mark a word is made of word characters. -/
theorem parts_of_word (whole : wordWidth text = text.length) :
    (∀ c ∈ text, isWordPart c) ∨ ∃ rest, text = 'r' :: '#' :: rest ∧ ∀ c ∈ rest, isWordPart c := by
  unfold wordWidth at whole
  split at whole
  · rename_i rest
    split_ifs at whole
    · exact .inl (parts_of_plainWordWidth whole)
    · refine .inr ⟨rest, rfl, parts_of_plainWordWidth ?_⟩
      simp only [List.length_cons] at whole
      omega
  · exact .inl (parts_of_plainWordWidth whole)

theorem isBlank_of_isWordPart (part : isWordPart c) : Text.isBlank c = false := by
  by_contra blank
  have apart := isSeal_of_blank (by simpa using blank)
  simp [isSeal, part] at apart

theorem isDigit_of_isWordStart (start : isWordStart c) : c.isDigit = false := by
  simp only [isWordStart, Char.isAlpha, Char.isUpper, Char.isLower, Char.isDigit,
    Bool.or_eq_true, Bool.and_eq_true, decide_eq_true_eq, UInt32.le_iff_toNat_le, ge_iff_le,
    Bool.and_eq_false_iff, decide_eq_false_iff_not] at start ⊢
  rcases start with (upper | lower) | rfl
  · have above : '9'.val.toNat < 'A'.val.toNat := by decide
    omega
  · have above : '9'.val.toNat < 'a'.val.toNat := by decide
    omega
  · decide

/-- The character begins a word that is neither raw nor the mark of a literal. -/
def startsName (c : Char) : Bool :=
  isWordStart c && !Text.isDigitLike c && c ≠ 'r' && c ≠ 'b'

theorem cut_name (starts : startsName c) (parts : ∀ d ∈ rest, isWordPart d) :
    cut c rest = .ok ⟨some .ident, rest.length⟩ := by
  simp only [startsName, Bool.and_eq_true, Bool.not_eq_true', decide_eq_true_eq] at starts
  obtain ⟨⟨⟨start, foreign⟩, notRaw⟩, notBytes⟩ := starts
  have apart : ∀ d, isWordStart d = false → c ≠ d := by
    rintro d other rfl
    rw [start] at other
    cases other
  have raw : rawOpening? (c :: rest) = none := by
    rw [rawOpening?_of_ne (by simpa using notBytes), rawOpeningAfter?]
    rintro more same
    exact notRaw (List.cons.inj same).1
  have width : wordWidth (c :: rest) = rest.length + 1 := by
    have all : rest.takeWhile isWordPart = rest := List.takeWhile_eq_self_iff.mpr parts
    unfold wordWidth
    split
    · rename_i same
      exact absurd (List.cons.inj same).1 notRaw
    · simp [plainWordWidth, start, all, Nat.add_comm]
  rw [cut_token (isBlank_of_isWordPart (by simp [isWordPart, start]))
      fun slash => absurd slash (apart '/' (by decide)),
    cutToken_plain raw (apart '"' (by decide)) (apart '\'' (by decide))
      fun same => absurd same notBytes]
  simp [cutPlain, isDigit_of_isWordStart start, foreign, width]

theorem numeralWidth_digits {c : Char} (digits : ∀ d ∈ c :: rest, d.isDigit) :
    numeralWidth (c :: rest) = rest.length + 1 := by
  have based : basedWidth? (c :: rest) = none := by
    unfold basedWidth?
    split
    · rename_i mark more same
      have digit : mark.isDigit := digits mark (by simp [same])
      have none : basedDigit mark = none := by
        have apart : ∀ d, d.isDigit = false → mark ≠ d := by
          rintro d other rfl
          rw [digit] at other
          cases other
        simp [basedDigit, apart 'x' (by decide), apart 'o' (by decide), apart 'b' (by decide)]
      rw [none]
      rfl
    · rfl
  have all : (c :: rest).takeWhile isDigitOrBar = c :: rest :=
    List.takeWhile_eq_self_iff.mpr fun d member => by simp [isDigitOrBar, digits d member]
  simp [numeralWidth, based, decimalWidth, all, fractionWidth, exponentWidth, plainWordWidth]

/-- What begins with a digit is a numeral. -/
theorem cut_numeral {c : Char} (digit : c.isDigit) (rest : List Char) :
    cut c rest = .ok ⟨some (numeralKind ((c :: rest).take (numeralWidth (c :: rest)))),
      numeralWidth (c :: rest) - 1⟩ := by
  have apart : ∀ d, d.isDigit = false → c ≠ d := by
    rintro d other rfl
    rw [digit] at other
    cases other
  have raw : rawOpening? (c :: rest) = none := by
    rw [rawOpening?_of_ne (by simpa using apart 'b' (by decide)), rawOpeningAfter?]
    rintro more same
    exact apart 'r' (by decide) (List.cons.inj same).1
  rw [cut_token (isBlank_of_isWordPart (by simp [isWordPart, digit]))
      fun slash => absurd slash (apart '/' (by decide)),
    cutToken_plain raw (apart '"' (by decide)) (apart '\'' (by decide))
      fun same => absurd same (apart 'b' (by decide))]
  simp [cutPlain, digit]

theorem cut_digits (digits : ∀ d ∈ c :: rest, d.isDigit) :
    ∃ kind ≠ Token.Kind.punct, cut c rest = .ok ⟨some kind, rest.length⟩ := by
  refine ⟨numeralKind (c :: rest), ?_, ?_⟩
  · unfold numeralKind
    split_ifs <;> simp
  · rw [cut_numeral (digits c (by simp)), numeralWidth_digits digits]
    simp

end Scan

namespace IsWord

open Scan

variable {name : String}

theorem parts (word : IsWord name) : (∀ c ∈ name.toList, isWordPart c) ∨
    ∃ rest, name.toList = 'r' :: '#' :: rest ∧ ∀ c ∈ rest, isWordPart c := by
  obtain ⟨c, more, text, isCut⟩ := word
  replace text : name.toList = c :: more := text
  rw [text]
  refine parts_of_word ?_
  rw [List.append_nil] at isCut
  exact wordWidth_of_ident isCut

theorem exists_start (word : IsWord name) : ∃ c more, name.toList = c :: more ∧ isWordStart c := by
  obtain ⟨c, more, text, isCut⟩ := word
  rw [List.append_nil] at isCut
  have width : wordWidth (c :: more) ≠ 0 := by
    rw [wordWidth_of_ident isCut]
    exact Nat.succ_ne_zero _
  exact ⟨c, more, text, isWordStart_of_wordWidth width⟩

theorem of_parts (starts : startsName c) (text : name.toList = c :: rest)
    (parts : ∀ d ∈ rest, isWordPart d) : IsWord name := by
  refine ⟨c, rest, text, ?_⟩
  rw [List.append_nil]
  exact cut_name starts parts

end IsWord

/-- A number in decimal digits is a token. -/
theorem isToken_toString (n : Nat) : ∃ kind ≠ Token.Kind.punct,
    Lexeme.IsToken ⟨kind, toString n⟩ := by
  have digits : ∀ c ∈ (toString n).toList, c.isDigit := by
    intro c member
    rw [Nat.toString_eq_ofList_toDigits, String.toList_ofList] at member
    exact Nat.isDigit_of_mem_toDigits (by decide) le_rfl member
  obtain ⟨c, rest, text⟩ : ∃ c rest, (toString n).toList = c :: rest := by
    refine List.exists_cons_of_ne_nil ?_
    rw [Nat.toString_eq_ofList_toDigits, String.toList_ofList]
    exact Nat.toDigits_ne_nil
  rw [text] at digits
  obtain ⟨kind, other, isCut⟩ := Scan.cut_digits digits
  refine ⟨kind, other, c, rest, text, ?_⟩
  rw [List.append_nil]
  exact isCut

end ActorGlue
