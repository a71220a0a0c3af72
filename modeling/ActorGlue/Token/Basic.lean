/-!
# Tokens

A lexeme is a kind and a text. A token is a lexeme with its place in the source, counted in
characters.
-/

namespace ActorGlue

/-- A stretch of source text from `start` up to `stop`, counted in characters. -/
structure Span where
  start : Nat
  stop : Nat
  deriving DecidableEq, Repr, Inhabited

/-- The text that a span covers. -/
def Span.slice (span : Span) (source : List Char) : List Char :=
  (source.take span.stop).drop span.start

namespace Token

/-- The classes of tokens. -/
inductive Kind where
  | ident
  | punct
  | lifetime
  | int
  | float
  | str
  | char
  deriving DecidableEq, Repr

/-- The word for a class. -/
def Kind.name : Kind → String
  | .ident => "ident"
  | .punct => "punct"
  | .lifetime => "lifetime"
  | .int => "int"
  | .float => "float"
  | .str => "str"
  | .char => "char"

end Token

/-- A token without its place. -/
structure Lexeme where
  kind : Token.Kind
  text : String
  deriving DecidableEq, Repr

namespace Lexeme

/-- The given punctuation mark. -/
def isPunct (lexeme : Lexeme) (text : String) : Bool :=
  lexeme.kind = .punct && lexeme.text = text

/-- The given word. -/
def isIdent (lexeme : Lexeme) (text : String) : Bool :=
  lexeme.kind = .ident && lexeme.text = text

/-- The given punctuation mark or word. -/
def is (lexeme : Lexeme) (text : String) : Bool :=
  (lexeme.kind = .punct || lexeme.kind = .ident) && lexeme.text = text

/-- A punctuation mark among the given ones. -/
def isPunctOf (lexeme : Lexeme) (texts : List String) : Bool :=
  lexeme.kind = .punct && texts.contains lexeme.text

/-- The delimiter that closes a group opened by the given text. -/
def closerOf? (text : String) : Option String :=
  if text = "(" then some ")"
  else if text = "[" then some "]"
  else if text = "\x7b" then some "\x7d"
  else none

/-- What closes the group that the lexeme opens. -/
def closer? (lexeme : Lexeme) : Option String :=
  if lexeme.kind = .punct then closerOf? lexeme.text else none

/-- The lexeme closes a group. -/
def isCloser (lexeme : Lexeme) : Bool :=
  lexeme.isPunctOf [")", "]", "\x7d"]

end Lexeme

/-- A lexeme at its place in the source. -/
structure Token extends Lexeme where
  start : Nat
  stop : Nat
  deriving DecidableEq, Repr

/-- The place of a token. -/
def Token.span (token : Token) : Span :=
  ⟨token.start, token.stop⟩

end ActorGlue
