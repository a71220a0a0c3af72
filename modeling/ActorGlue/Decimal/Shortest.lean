/-!
# Shortest decimals

The decimal with the fewest digits that rounds to a given binary number. The binary number
`m * 2 ^ q` stands for all reals that are closer to it than to its neighbours, and for the middles
too when `m` is even. For each number of digits the two neighbours on that decimal grid are tried,
and the nearer one is taken if both round to it.
-/

namespace ActorGlue.Decimal

/-- A positive binary number, with the gap below it half as wide as the one above if it is the
least of its exponent. -/
structure Binary where
  significand : Nat
  exponent : Int
  narrow : Bool
  deriving DecidableEq, Repr

/-- Digits and the place of the point before them: `0.ddd * 10 ^ point`. -/
structure Digits where
  digits : List Char
  point : Int
  deriving DecidableEq, Repr

/-- A positive fraction. -/
structure Fraction where
  num : Nat
  den : Nat
  deriving DecidableEq, Repr

/-- The fraction times a power of a base. -/
def Fraction.scale (f : Fraction) (base : Nat) (power : Int) : Fraction :=
  if 0 ≤ power then ⟨f.num * Nat.pow base power.toNat, f.den⟩
  else ⟨f.num, f.den * Nat.pow base (-power).toNat⟩

/-- One fraction is below another. -/
def Fraction.lt (a b : Fraction) : Bool :=
  a.num * b.den < b.num * a.den

/-- `n` quarters of the unit of a binary number. -/
def Binary.quarters (b : Binary) (n : Nat) : Fraction :=
  Fraction.scale ⟨n, 1⟩ 2 (b.exponent - 2)

/-- The exact value of a binary number. -/
def Binary.value (b : Binary) : Fraction :=
  b.quarters (4 * b.significand)

/-- A fraction rounds to a binary number. -/
def Binary.covers (b : Binary) (f : Fraction) : Bool :=
  let low := b.quarters (4 * b.significand - (if b.narrow then 1 else 2))
  let high := b.quarters (4 * b.significand + 2)
  if b.significand % 2 = 0 then !f.lt low && !high.lt f else low.lt f && f.lt high

/-- The least power of ten that is above a fraction, searched upwards from an estimate. -/
def pointFrom (f : Fraction) : Nat → Int → Int
  | 0, point => point
  | steps + 1, point =>
      if f.lt (Fraction.scale ⟨1, 1⟩ 10 point) then point else pointFrom f steps (point + 1)

/-- The place of the point of a binary number. -/
def Binary.point (b : Binary) : Int :=
  let estimate := ((Nat.log2 b.significand : Int) + b.exponent) * 30103 / 100000
  pointFrom b.value 4 (estimate - 1)

/-- The decimal `n * 10 ^ power`. -/
def grid (n : Nat) (power : Int) : Fraction :=
  Fraction.scale ⟨n, 1⟩ 10 power

/-- The distance between two fractions. -/
def distance (a b : Fraction) : Fraction :=
  ⟨(a.num * b.den - b.num * a.den) + (b.num * a.den - a.num * b.den), a.den * b.den⟩

/-- The decimal of a grid that rounds to a binary number. -/
def Binary.onGrid? (b : Binary) (power : Int) : Option Nat :=
  let scaled := b.value.scale 10 (-power)
  let below := scaled.num / scaled.den
  let above := below + 1
  match b.covers (grid below power), b.covers (grid above power) with
  | true, true =>
      let down := distance b.value (grid below power)
      let up := distance (grid above power) b.value
      if down.lt up then some below
      else if up.lt down then some above
      else some (if below % 2 = 0 then below else above)
  | true, false => some below
  | false, true => some above
  | false, false => none

/-- The first grid with a decimal that rounds to a binary number, from `used` digits on. -/
def Binary.search (b : Binary) (point : Int) : Nat → Int → Nat × Int
  | 0, used => ((b.onGrid? (point - used)).getD 0, point - used)
  | steps + 1, used =>
      match b.onGrid? (point - used) with
      | some n => (n, point - used)
      | none => b.search point steps (used + 1)

/-- Digits without the zeros at their end. -/
def dropZeros (digits : List Char) : List Char :=
  (digits.reverse.dropWhile (· = '0')).reverse

/-- The shortest decimal that rounds to a binary number. -/
def Binary.shortest (b : Binary) : Digits :=
  let (n, power) := b.search b.point 16 1
  let digits := Nat.toDigits 10 n
  ⟨dropZeros digits, digits.length + power⟩

end ActorGlue.Decimal
