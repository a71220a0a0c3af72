import ActorGlue.Text.Blank

/-!
# String literals

The double-quoted literals of generated text: writing escapes the backslash, the quote, the
newline and the tab, and reading understands every escape of the language.
-/

namespace ActorGlue.Text

/-- One character inside a written literal. -/
def escapeChar (c : Char) : List Char :=
  if c = '\\' then ['\\', '\\']
  else if c = '"' then ['\\', '"']
  else if c = '\n' then ['\\', 'n']
  else if c = '\t' then ['\\', 't']
  else [c]

/-- The content of a literal as it is written between the quotes. -/
def escape (content : List Char) : List Char :=
  content.flatMap escapeChar

def literal (text : String) : String :=
  String.ofList ('"' :: escape text.toList ++ ['"'])

/-- An ASCII hexadecimal digit. -/
def isHexDigit (c : Char) : Bool :=
  c.isDigit || ('a' ≤ c && c ≤ 'f') || ('A' ≤ c && c ≤ 'F')

/-- The value of an ASCII hexadecimal digit. -/
def hexValue (c : Char) : Nat :=
  if c.isDigit then c.toNat - '0'.toNat
  else if 'a' ≤ c then c.toNat - 'a'.toNat + 10
  else c.toNat - 'A'.toNat + 10

/-- The number that hexadecimal digits stand for. -/
def hexNumber (digits : List Char) : Nat :=
  digits.foldl (fun n c => 16 * n + hexValue c) 0

/-- The escapes of one letter. -/
def simpleEscape? (c : Char) : Option Char :=
  if c = 'n' then some '\n'
  else if c = 'r' then some '\r'
  else if c = 't' then some '\t'
  else if c = '0' then some '\x00'
  else if c = '\\' || c = '\'' || c = '"' then some c
  else none

/-- The digits of a code point in braces, with underscores after the first of at most eight. -/
def bracedDigits? : List Char → Option (List Char)
  | '{' :: first :: rest =>
      let more := rest.takeWhile fun c => isHexDigit c || c = '_'
      if isHexDigit first && more.length ≤ 7 && (rest.drop more.length).head? = some '}' then
        some (first :: more)
      else none
  | _ => none

/-- What the characters after a backslash stand for, and how many of them there are. Without a
meaning of its own an escape stands for itself. The code of a surrogate is that of no character, and
is read as the null character. -/
def readEscape : List Char → List Char × Nat
  | [] => (['\\'], 0)
  | c :: rest =>
      let digits := rest.take 2
      if c = 'x' && digits.length = 2 && digits.all isHexDigit then
        ([Char.ofNat (hexNumber digits)], 3)
      else if c = '\n' then
        ([], 1 + (rest.takeWhile isBlank).length)
      else
        let own := match simpleEscape? c with
          | some meaning => ([meaning], 1)
          | none => (['\\', c], 1)
        if c = 'u' then
          match bracedDigits? rest with
          | some digits =>
              let point := hexNumber (digits.filter (· ≠ '_'))
              let width := digits.length + 3
              if point ≤ 0x10ffff then ([Char.ofNat point], width)
              else ('\\' :: 'u' :: '{' :: digits ++ ['}'], width)
          | none => own
        else own

/-- Reads the content of a literal; the first argument counts characters that an escape has
already used. -/
def unescapeFrom : Nat → List Char → List Char
  | _, [] => []
  | skip + 1, _ :: rest => unescapeFrom skip rest
  | 0, c :: rest =>
      if c = '\\' then
        let (meaning, width) := readEscape rest
        meaning ++ unescapeFrom width rest
      else c :: unescapeFrom 0 rest

/-- The content that a written literal stands for. -/
def unescape (content : List Char) : List Char :=
  unescapeFrom 0 content

/-- The content of a raw literal: what stands between the quotes and their hashes. -/
def rawContent (hashes : Nat) (token : List Char) : List Char :=
  (token.drop (hashes + 2)).take (token.length - (2 * hashes + 3))

/-- The value of a string literal, raw or with escapes. -/
def literalValue (token : List Char) : List Char :=
  match token with
  | 'r' :: rest => rawContent (rest.takeWhile (· = '#')).length token
  | _ => unescape (token.drop 1).dropLast

end ActorGlue.Text
