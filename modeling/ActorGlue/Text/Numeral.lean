import ActorGlue.Text.Blank
import ActorGlue.Text.Digit
import ActorGlue.Text.Quoted

/-!
# Integer numerals

The value of an integer literal: separators and a type suffix are dropped, `0x`, `0o` and `0b`
choose the base, and what is left is read as a signed numeral. Decimal numerals that are too long
are neither read nor written.
-/

namespace ActorGlue.Text

/-- Why a text is no numeral, or an integer has none. -/
inductive NumeralFault where
  | malformed (base : Nat) (text : String)
  | tooLong (digits : Nat)
  | unwritable
  deriving DecidableEq, Repr

/-- Longest decimal numeral that is read or written. -/
def maxDecimalDigits : Nat := 4300

/-- Longest text that is shown of what is no numeral, with its quotes. -/
def maxShown : Nat := 200

/-- The wording of a fault. -/
def NumeralFault.message : NumeralFault → String
  | .malformed base text =>
      "invalid literal for int() with base " ++ toString base ++ ": " ++
        String.ofList ((quoted text).toList.take maxShown)
  | .tooLong digits =>
      "Exceeds the limit (" ++ toString maxDecimalDigits ++
        " digits) for integer string conversion: value has " ++ toString digits ++
        " digits; use sys.set_int_max_str_digits() to increase the limit"
  | .unwritable =>
      "Exceeds the limit (" ++ toString maxDecimalDigits ++
        " digits) for integer string conversion; " ++
        "use sys.set_int_max_str_digits() to increase the limit"

/-- The decimal numeral of an integer is not too long to be written. -/
def isWritable (n : Int) : Bool :=
  (Nat.toDigits 10 n.natAbs).length ≤ maxDecimalDigits

/-- One digit behind a number. -/
def digitStep (base : Nat) (value : Option Nat) (c : Char) : Option Nat := do
  let n ← value
  let d ← digitValue? c
  if d < base then some (base * n + d) else none

/-- The number that digits of a base stand for, if all of them are digits of it. -/
def digitsValue? (base : Nat) (digits : List Char) : Option Nat :=
  digits.foldl (digitStep base) (some 0)

/-- A digit of a base. -/
def isDigitOf (base : Nat) (c : Char) : Bool :=
  (digitValue? c).any (· < base)

/-- The letter that marks a base after a zero, in lower and upper case. -/
def baseMarks (base : Nat) : List Char :=
  if base = 16 then ['x', 'X'] else if base = 8 then ['o', 'O'] else if base = 2 then ['b', 'B']
  else []

/-- The digits without one leading mark of the base, which is a zero of any script and a letter. -/
def dropBaseMark (base : Nat) : List Char → List Char
  | zero :: mark :: rest =>
      if decimalValue? zero = some 0 && (baseMarks base).contains mark then rest
      else zero :: mark :: rest
  | digits => digits

/-- Splits off a leading sign; true means negative. -/
def splitSign : List Char → Bool × List Char
  | '-' :: rest => (true, rest)
  | '+' :: rest => (false, rest)
  | rest => (false, rest)

/-- Reads a signed numeral: white space around it, a sign and one mark of the base are allowed. A
decimal numeral that is too long is refused for that, whatever follows its digits. -/
def readNumeral (base : Nat) (text : List Char) : Except NumeralFault Int :=
  let (negative, unsigned) := splitSign (text.dropWhile isPlainBlank)
  let marked := dropBaseMark base unsigned
  let digits := marked.takeWhile (isDigitOf base)
  let rest := marked.dropWhile (isDigitOf base)
  if base = 10 && maxDecimalDigits < digits.length then .error (.tooLong digits.length)
  else
    match digits, digitsValue? base digits with
    | _ :: _, some n =>
        if rest.all isPlainBlank then .ok (if negative then -(n : Int) else n)
        else .error (.malformed base (String.ofList text))
    | _, _ => .error (.malformed base (String.ofList text))

/-- The widths that an integer type suffix may name. -/
def suffixWidths : List (List Char) :=
  [['8'], ['1', '6'], ['3', '2'], ['6', '4'], ['1', '2', '8'], ['s', 'i', 'z', 'e']]

/-- The suffixes that name an integer type. -/
def intSuffixes : List (List Char) :=
  ['i', 'u'].flatMap fun sign => suffixWidths.map (sign :: ·)

/-- The text without an integer type suffix at its end. -/
def dropSuffixAtEnd (text : List Char) : List Char :=
  match intSuffixes.find? fun suffix => suffix.isSuffixOf text with
  | some suffix => text.take (text.length - suffix.length)
  | none => text

/-- The text without an integer type suffix; the suffix may stand before one final newline. -/
def dropIntSuffix (text : List Char) : List Char :=
  match text.getLast? with
  | some '\n' => dropSuffixAtEnd text.dropLast ++ ['\n']
  | _ => dropSuffixAtEnd text

/-- The value of an integer literal. -/
def intLiteral (text : List Char) : Except NumeralFault Int :=
  match (dropIntSuffix text).filter (· ≠ '_') with
  | '0' :: 'x' :: digits => readNumeral 16 digits
  | '0' :: 'o' :: digits => readNumeral 8 digits
  | '0' :: 'b' :: digits => readNumeral 2 digits
  | digits => readNumeral 10 digits

end ActorGlue.Text
