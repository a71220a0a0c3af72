import ActorGlue.Token.Basic

/-!
# Joining lexemes

A run of lexemes as normalized text: one blank between neighbours, except where a punctuation mark
binds tightly to what stands before or after it.
-/

namespace ActorGlue.Lexeme

/-- Marks that bind to what follows them. -/
def tightAfter : List String := ["::", "(", "[", "<", "&", "*", "#", "!", "'", "$"]

/-- Marks that bind to what stands before them. -/
def tightBefore : List String := ["::", ",", ";", ")", "]", ">", "<", "(", ".", ":", "?"]

/-- Marks with a blank on both sides. -/
def spaced : List String := ["->", "=", "+", "=>"]

/-- Marks with a blank after them. -/
def spacedAfter : List String := spaced ++ [",", ";", ":"]

/-- No blank is written between two neighbours. Later rules override earlier ones. -/
def isTight (left right : Lexeme) : Bool :=
  if right.isPunct ":" || (right.isPunct "!" && left.kind = .ident) then true
  else if left.isPunctOf spacedAfter then false
  else if right.isPunctOf spaced then false
  else if right.isPunct "(" && left.kind = .punct && !tightAfter.contains left.text then false
  else left.isPunctOf tightAfter || right.isPunctOf tightBefore

/-- The text of the lexemes that follow `left`, with its blanks. -/
def joinAfter (left : Lexeme) : List Lexeme → String
  | [] => ""
  | right :: rest =>
      (if left.isTight right then "" else " ") ++ right.text ++ joinAfter right rest

/-- The lexemes as normalized text. -/
def join : List Lexeme → String
  | [] => ""
  | first :: rest => first.text ++ joinAfter first rest

end ActorGlue.Lexeme
