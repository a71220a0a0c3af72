import ActorGlue.Fault
import ActorGlue.Text.Numeral
import ActorGlue.Token.Basic

/-!
# Scanning

The scanner cuts a text into pieces: white space and comments, which are gaps, and lexemes. Each
decision looks only at the characters ahead, so the pieces do not depend on where the text stands,
and their texts concatenate to the whole.
-/

namespace ActorGlue

/-- Reading stops for good, with nothing to report a place for: at a digit that no numeral may
start with, or because the parser makes no more progress. -/
inductive Halt where
  | foreignDigit
  | endless
  deriving DecidableEq, Repr

/-- A fault and its place in the text. -/
structure ParseError where
  fault : Fault
  span : Span
  deriving DecidableEq, Repr

/-- The wording of a parse error. -/
def ParseError.message (error : ParseError) : String :=
  error.fault.message

/-- Why a text has no parse. -/
inductive ParseFailure where
  | rejected (error : ParseError)
  | halted (halt : Halt)
  deriving DecidableEq, Repr

namespace Scan

/-- May begin a word of the language. -/
def isWordStart (c : Char) : Bool :=
  c.isAlpha || c = '_'

/-- May continue a word of the language. -/
def isWordPart (c : Char) : Bool :=
  isWordStart c || c.isDigit

/-- The width of a plain word at the front; zero if there is none. -/
def plainWordWidth (text : List Char) : Nat :=
  match text with
  | [] => 0
  | c :: rest => if isWordStart c then 1 + (rest.takeWhile isWordPart).length else 0

/-- The width of a word at the front, raw or plain; zero if there is none. -/
def wordWidth (text : List Char) : Nat :=
  match text with
  | 'r' :: '#' :: rest =>
      if plainWordWidth rest = 0 then plainWordWidth text else 2 + plainWordWidth rest
  | _ => plainWordWidth text

/-- What is left of a block comment, through the end of the outermost one; the first argument
counts the comments open around the current one. -/
def commentWidth? : Nat → List Char → Option Nat
  | depth, '/' :: '*' :: rest => (commentWidth? (depth + 1) rest).map (· + 2)
  | 0, '*' :: '/' :: _ => some 2
  | depth + 1, '*' :: '/' :: rest => (commentWidth? depth rest).map (· + 2)
  | depth, _ :: rest => (commentWidth? depth rest).map (· + 1)
  | _, [] => none

/-- What is left of a quoted literal, through its closing quote. -/
def quotedWidth? (quote : Char) : List Char → Option Nat
  | '\\' :: _ :: rest => (quotedWidth? quote rest).map (· + 2)
  | '\\' :: [] => none
  | c :: rest => if c = quote then some 1 else (quotedWidth? quote rest).map (· + 1)
  | [] => none

/-- How a raw string begins after the mark of a byte string, which has the given width: the number
of hashes and the width through the quote. -/
def rawOpeningAfter? (mark : Nat) : List Char → Option (Nat × Nat)
  | 'r' :: rest =>
      let hashes := (rest.takeWhile (· = '#')).length
      if (rest.drop hashes).head? = some '"' then some (hashes, mark + 1 + hashes + 1) else none
  | _ => none

/-- How a raw string begins. -/
def rawOpening? : List Char → Option (Nat × Nat)
  | 'b' :: rest => rawOpeningAfter? 1 rest
  | text => rawOpeningAfter? 0 text

/-- What is left of a raw string, through its closing quote and hashes. -/
def rawWidth? (hashes : Nat) : List Char → Option Nat
  | [] => none
  | c :: rest =>
      if c = '"' && rest.take hashes = List.replicate hashes '#' then some (1 + hashes)
      else (rawWidth? hashes rest).map (· + 1)

/-- The width of an integer type suffix at the front; zero if there is none. -/
def suffixWidth (text : List Char) : Nat :=
  match Text.intSuffixes.find? fun suffix => suffix.isPrefixOf text with
  | some suffix => suffix.length
  | none => 0

/-- The digits of the based numerals, each after its mark. -/
def basedDigit (mark : Char) : Option (Char → Bool) :=
  if mark = 'x' then some fun c => c.isDigit || ('a' ≤ c && c ≤ 'f') || ('A' ≤ c && c ≤ 'F')
  else if mark = 'o' then some fun c => '0' ≤ c && c ≤ '7'
  else if mark = 'b' then some fun c => c = '0' || c = '1'
  else none

/-- The width of a numeral with a mark of its base. -/
def basedWidth? : List Char → Option Nat
  | '0' :: mark :: rest => do
      let isDigit ← basedDigit mark
      let digits := (rest.takeWhile fun c => isDigit c || c = '_').length
      if digits = 0 then none
      else some (2 + digits + suffixWidth (rest.drop digits))
  | _ => none

/-- A decimal digit or a separator. -/
def isDigitOrBar (c : Char) : Bool :=
  c.isDigit || c = '_'

/-- The width of a fraction at the front; zero if there is none. -/
def fractionWidth : List Char → Nat
  | '.' :: c :: rest => if c.isDigit then 2 + (rest.takeWhile isDigitOrBar).length else 0
  | _ => 0

/-- The width of a sign at the front. -/
def signWidth : List Char → Nat
  | c :: _ => if c = '+' || c = '-' then 1 else 0
  | [] => 0

/-- The width of an exponent at the front; zero if there is none. -/
def exponentWidth : List Char → Nat
  | c :: rest =>
      let sign := signWidth rest
      let digits := ((rest.drop sign).takeWhile isDigitOrBar).length
      if (c = 'e' || c = 'E') && digits ≠ 0 then 1 + sign + digits else 0
  | [] => 0

/-- The width of a decimal numeral with its fraction, exponent and suffix. -/
def decimalWidth (text : List Char) : Nat :=
  let whole := (text.takeWhile isDigitOrBar).length
  let fraction := whole + fractionWidth (text.drop whole)
  let exponent := fraction + exponentWidth (text.drop fraction)
  exponent + plainWordWidth (text.drop exponent)

def numeralWidth (text : List Char) : Nat :=
  (basedWidth? text).getD (decimalWidth text)

/-- The numeral has a mark of its base. -/
def hasBaseMark : List Char → Bool
  | '0' :: mark :: _ => (basedDigit mark).isSome
  | _ => false

/-- The text ends in the name of a floating type. -/
def hasFloatSuffix (text : List Char) : Bool :=
  ['f', '3', '2'].isSuffixOf text || ['f', '6', '4'].isSuffixOf text

/-- A point or an exponent letter follows the leading digits. -/
def hasFloatForm (text : List Char) : Bool :=
  match text.dropWhile isDigitOrBar with
  | c :: _ => c = '.' || c = 'e' || c = 'E'
  | [] => false

def numeralKind (text : List Char) : Token.Kind :=
  if !hasBaseMark text && hasFloatForm text then .float
  else if hasFloatSuffix text && !(['0', 'x'].isPrefixOf text) then .float
  else .int

/-- The punctuation marks of more than one character, longer ones first. -/
def compoundMarks : List (List Char) :=
  [['.', '.', '='], ['.', '.', '.'], [':', ':'], ['-', '>'], ['=', '>'], ['.', '.']]

/-- The punctuation marks of one character. -/
def simpleMarks : List Char :=
  ['#', '!', '(', ')', '[', ']', '{', '}', '<', '>', ',', ';', ':', '=', '&', '*', '+', '-', '/',
    '%', '^', '|', '?', '@', '.', '$', '~']

/-- The width of a punctuation mark at the front; zero if there is none. -/
def markWidth (text : List Char) : Nat :=
  match compoundMarks.find? fun mark => mark.isPrefixOf text with
  | some mark => mark.length
  | none =>
      match text with
      | c :: _ => if simpleMarks.contains c then 1 else 0
      | [] => 0

/-- Why no piece begins at the characters ahead. An unterminated literal or comment is reported
from `skipped` characters further on to the end of the text. -/
inductive Stop where
  | unterminated (what : String) (skipped : Nat)
  | unexpected (c : Char)
  | foreignDigit
  deriving DecidableEq, Repr

/-- A piece ahead: its kind, none for a gap, and how many characters it has after the first. -/
structure Cut where
  kind : Option Token.Kind
  more : Nat
  deriving DecidableEq, Repr

/-- A literal that starts with `opening` characters and goes on for the given width. -/
def closeLiteral (kind : Token.Kind) (what : String) (opening reported : Nat) :
    Option Nat → Except Stop Cut
  | some width => .ok ⟨some kind, opening + width - 1⟩
  | none => .error (.unterminated what reported)

/-- What begins with a single quote: a character or a lifetime. -/
def cutQuote (rest : List Char) : Except Stop Cut :=
  match rest with
  | '\\' :: _ => closeLiteral .char "character literal" 1 1 (quotedWidth? '\'' rest)
  | _ :: '\'' :: _ => .ok ⟨some .char, 2⟩
  | _ =>
      if wordWidth rest = 0 then .error (.unexpected '\'')
      else .ok ⟨some .lifetime, wordWidth rest⟩

/-- What begins with none of the blanks, comments and quotes. -/
def cutPlain (c : Char) (rest : List Char) : Except Stop Cut :=
  let text := c :: rest
  if c.isDigit then
    let width := numeralWidth text
    .ok ⟨some (numeralKind (text.take width)), width - 1⟩
  else if Text.isDigitLike c then .error .foreignDigit
  else if wordWidth text ≠ 0 then .ok ⟨some .ident, wordWidth text - 1⟩
  else if markWidth text ≠ 0 then .ok ⟨some .punct, markWidth text - 1⟩
  else .error (.unexpected c)

/-- What begins with something other than a blank or a comment. -/
def cutToken (c : Char) (rest : List Char) : Except Stop Cut :=
  match rawOpening? (c :: rest) with
  | some (hashes, opening) =>
      closeLiteral .str "raw string literal" opening 0
        (rawWidth? hashes ((c :: rest).drop opening))
  | none =>
      match c, rest with
      | '"', body => closeLiteral .str "string literal" 1 1 (quotedWidth? '"' body)
      | 'b', '"' :: body => closeLiteral .str "string literal" 2 2 (quotedWidth? '"' body)
      | 'b', '\'' :: body => closeLiteral .char "character literal" 2 2 (quotedWidth? '\'' body)
      | '\'', body => cutQuote body
      | _, _ => cutPlain c rest

/-- The first piece of a text. -/
def cut (c : Char) (rest : List Char) : Except Stop Cut :=
  if Text.isBlank c then .ok ⟨none, 0⟩
  else match c, rest with
    | '/', '/' :: body => .ok ⟨none, 1 + (body.takeWhile (· ≠ '\n')).length⟩
    | '/', '*' :: body =>
        match commentWidth? 0 body with
        | some width => .ok ⟨none, 1 + width⟩
        | none => .error (.unterminated "block comment" 0)
    | _, _ => cutToken c rest

/-- A piece of the text: a gap, or a lexeme of some kind. -/
structure Piece where
  kind : Option Token.Kind
  text : List Char
  deriving DecidableEq, Repr

/-- Where and why the scanner stopped; `ahead` counts the characters that were left. -/
structure Stopped where
  stop : Stop
  ahead : Nat
  deriving DecidableEq, Repr

/-- The pieces of a text, after the given number of characters that belong to a piece already
cut. -/
def piecesFrom : Nat → List Char → Except Stopped (List Piece)
  | _, [] => .ok []
  | skip + 1, _ :: rest => piecesFrom skip rest
  | 0, c :: rest =>
      match cut c rest with
      | .error stop => .error ⟨stop, rest.length + 1⟩
      | .ok ⟨kind, more⟩ =>
          match piecesFrom more rest with
          | .error stopped => .error stopped
          | .ok pieces => .ok (⟨kind, c :: rest.take more⟩ :: pieces)

def pieces (text : List Char) : Except Stopped (List Piece) :=
  piecesFrom 0 text

/-- The lexemes among the pieces, each at its place. -/
def place (offset : Nat) : List Piece → List Token
  | [] => []
  | piece :: rest =>
      let stop := offset + piece.text.length
      match piece.kind with
      | none => place stop rest
      | some kind => ⟨⟨kind, String.ofList piece.text⟩, offset, stop⟩ :: place stop rest

/-- The failure that a stop amounts to in a text of the given size. -/
def Stopped.failure (stopped : Stopped) (size : Nat) : ParseFailure :=
  let start := size - stopped.ahead
  match stopped.stop with
  | .unterminated what skipped => .rejected ⟨.unterminated what, ⟨start + skipped, size⟩⟩
  | .unexpected c => .rejected ⟨.unexpectedChar c.toString, ⟨start, start + 1⟩⟩
  | .foreignDigit => .halted .foreignDigit

end Scan

/-- The tokens of a text, without white space and comments. -/
def tokenize (text : List Char) : Except ParseFailure (List Token) :=
  match Scan.pieces text with
  | .ok pieces => .ok (Scan.place 0 pieces)
  | .error stopped => .error (stopped.failure text.length)

end ActorGlue
