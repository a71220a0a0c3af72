/-!
# Lines and columns

Offsets into a text as line and column numbers, both counted from one. An offset outside the text
counts as the nearest end.
-/

namespace ActorGlue.Text

/-- A line and a column, counted from one. -/
structure Position where
  line : Nat
  column : Nat
  deriving DecidableEq, Repr

/-- Where the last newline of a text stands; one before its start if there is none. -/
def lastNewline (text : List Char) : Int :=
  match text.reverse.findIdx? (· = '\n') with
  | some back => text.length - 1 - back
  | none => -1

/-- The position of an offset: its line is told by the newlines before it, and its column by the
last of them. -/
def position (text : List Char) (offset : Int) : Position :=
  let offset := max 0 (min offset text.length)
  let before := text.take offset.toNat
  ⟨before.count '\n' + 1, (offset - lastNewline before).toNat⟩

end ActorGlue.Text
