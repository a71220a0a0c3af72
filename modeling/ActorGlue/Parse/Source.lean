import ActorGlue.Parse.Item

/-!
# Parsing source text

A source is a text with its tokens. Parsers run on the lexemes alone; the layout of the tokens
then places their extents and complaints in the text.
-/

namespace ActorGlue

/-- A text and its tokens. -/
structure Source where
  text : List Char
  tokens : Array Token

namespace Source

/-- The text with its tokens. -/
def read (text : List Char) : Except ParseFailure Source := do
  return ⟨text, (← tokenize text).toArray⟩

def lexemes (source : Source) : List Lexeme :=
  source.tokens.toList.map (·.toLexeme)

/-- The number of characters. -/
def size (source : Source) : Nat :=
  source.text.length

/-- Where the next token begins when the given number of tokens is ahead. -/
def startAt (source : Source) (ahead : Nat) : Nat :=
  match source.tokens[source.tokens.size - ahead]? with
  | some token => token.start
  | none => source.size

/-- Where the last token ended when the given number of tokens is ahead. -/
def stopAt (source : Source) (ahead : Nat) : Nat :=
  match source.tokens.size - ahead with
  | 0 => 0
  | index + 1 =>
      match source.tokens[index]? with
      | some token => token.stop
      | none => 0

/-- The characters from the first to the last token of an extent. -/
def span (source : Source) (extent : Extent) : Span :=
  ⟨source.startAt extent.before, source.stopAt extent.after⟩

/-- The place of the next token. -/
def spanAt (source : Source) (ahead : Nat) : Span :=
  source.span ⟨ahead, ahead - 1⟩

/-- Everything from the next token on. -/
def spanToEnd (source : Source) (ahead : Nat) : Span :=
  ⟨source.startAt ahead, source.size⟩

/-- The empty place at the end of the text. -/
def endSpan (source : Source) : Span :=
  ⟨source.size, source.size⟩

def slice (source : Source) (span : Span) : String :=
  String.ofList (span.slice source.text)

/-- A complaint as a failure with its place in the text. -/
def failure (source : Source) : Parse.Complaint → ParseFailure
  | .unexpected wanted (some found) ahead =>
      .rejected ⟨.unexpectedToken wanted found, source.spanAt ahead⟩
  | .unexpected wanted none _ => .rejected ⟨.unexpectedEnd wanted, source.endSpan⟩
  | .mismatched closer ahead => .rejected ⟨.unbalanced closer, source.spanAt ahead⟩
  | .unclosed opener ahead => .rejected ⟨.unbalanced opener, source.spanToEnd ahead⟩
  | .notTraitPath extent =>
      let span := source.span extent
      .rejected ⟨.unexpectedToken "a trait path" (source.slice span), span⟩
  | .endless => .halted .endless

/-- Runs a parser on all lexemes; also gives those it has left. -/
def run {α : Type} (source : Source) (parser : Parser α) :
    Except ParseFailure (α × List Lexeme) :=
  match parser source.lexemes with
  | .ok result => .ok result
  | .error complaint => .error (source.failure complaint)

end Source

/-- The type that makes up a text. -/
def parseType (text : List Char) : Except ParseFailure (Ty Span) := do
  let source ← Source.read text
  let (ty, rest) ← source.run Parse.ty
  match rest with
  | [] => return ty.map source.span
  | lexeme :: _ =>
      throw (.rejected ⟨.trailing lexeme.text, source.spanToEnd rest.length⟩)

/-- How much of the text after an item is shown. -/
def trailingWidth : Nat := 40

/-- The item that makes up a text. -/
def parseItem (text : List Char) : Except ParseFailure (Item Span) := do
  let source ← Source.read text
  let (item, rest) ← source.run Parse.item
  match rest with
  | [] => return item.map source.span
  | _ :: _ =>
      let span := source.spanToEnd rest.length
      let excerpt := (Text.trim (span.slice text)).take trailingWidth
      throw (.rejected ⟨.trailing (String.ofList excerpt), span⟩)

def parseFile (text : List Char) : Except ParseFailure (List (Item Span)) := do
  let source ← Source.read text
  let (items, _) ← source.run Parse.file
  return items.map (·.map source.span)

end ActorGlue
