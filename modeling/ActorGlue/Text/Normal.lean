import ActorGlue.Text.Composition

/-!
# Normal forms

A text is in normal form if no character in it stands for another one, the marks after a base are
in the order of their classes, and every mark that can be part of its base is. Characters are
taken as code points here.
-/

namespace ActorGlue.Text

/-- The first syllable that is made of jamo. -/
def firstSyllable : Nat := 0xac00

/-- The number of syllables that share their first two jamo. -/
def lastJamos : Nat := 28

/-- The number of syllables that share their first jamo. -/
def lateJamos : Nat := 588

/-- The number of syllables. -/
def syllables : Nat := 11172

/-- The jamo of a syllable. -/
def syllableParts? (c : Nat) : Option (List Nat) :=
  if firstSyllable ≤ c ∧ c < firstSyllable + syllables then
    let index := c - firstSyllable
    let last := index % lastJamos
    some ([0x1100 + index / lateJamos, 0x1161 + index % lateJamos / lastJamos] ++
      (if last = 0 then [] else [0x11a7 + last]))
  else none

/-- The syllable of two jamo, or of a syllable and a jamo that ends it. -/
def syllable? (first second : Nat) : Option Nat :=
  if 0x1100 ≤ first ∧ first < 0x1113 ∧ 0x1161 ≤ second ∧ second < 0x1176 then
    some (firstSyllable + (first - 0x1100) * lateJamos + (second - 0x1161) * lastJamos)
  else if firstSyllable ≤ first ∧ first < firstSyllable + syllables ∧
      (first - firstSyllable) % lastJamos = 0 ∧ 0x11a7 < second ∧ second < 0x11a7 + lastJamos then
    some (first + (second - 0x11a7))
  else none

/-- The base and the mark of a composite character. -/
def pairOf? (c : Nat) : Option (Nat × Nat) :=
  (compositions.find? (·.2.2 = c)).map fun entry => (entry.1, entry.2.1)

/-- The character that is made of two others. -/
def composite? (first second : Nat) : Option Nat :=
  (syllable? first second).orElse fun _ =>
    (compositions.find? fun entry => entry.1 = first && entry.2.1 = second).map (·.2.2)

/-- A character taken apart. Bases can be composite themselves, but not more than `depth` times. -/
def decompose : (depth : Nat) → Nat → List Nat
  | 0, c => [c]
  | depth + 1, c =>
      match syllableParts? c, pairOf? c with
      | some jamo, _ => jamo
      | none, some (base, mark) => decompose depth base ++ [mark]
      | none, none => [c]

/-- Puts a mark in front of the marks of higher classes that it precedes. -/
def insertMark (c : Nat) : List Nat → List Nat
  | [] => [c]
  | other :: rest =>
      if 0 < markClass other ∧ markClass other < markClass c then other :: insertMark c rest
      else c :: other :: rest

/-- Characters with the marks after each base in the order of their classes. -/
def orderMarks : List Nat → List Nat
  | [] => []
  | c :: rest => if markClass c = 0 then c :: orderMarks rest else insertMark c (orderMarks rest)

/-- Characters put together. `base` is the last character that is no mark and `marks`, last one
first, are those after it that could not become part of it. -/
def compose (base : Option Nat) (marks : List Nat) : List Nat → List Nat
  | [] => base.toList ++ marks.reverse
  | c :: rest =>
      let free := match marks with
        | [] => true
        | last :: _ => markClass last < markClass c
      match base.bind fun base => if free then composite? base c else none with
      | some whole => compose (some whole) marks rest
      | none =>
          if markClass c = 0 then base.toList ++ marks.reverse ++ compose (some c) [] rest
          else compose base (c :: marks) rest

/-- The normal form of characters none of which stands for another one. -/
def normalForm (codes : List Nat) : List Nat :=
  compose none [] (orderMarks (codes.flatMap (decompose 4)))

/-- The text is in normal form. -/
def isNormal (text : List Char) : Bool :=
  !text.any replacedRanges.holds &&
    (text.all (·.toNat < 0x300) || normalForm (text.map Char.toNat) == text.map Char.toNat)

end ActorGlue.Text
