import ActorGlue.Decimal.Shortest

/-!
# Doubles

Floating point numbers of 64 bits, known by their bits, with exact conversions from the shorter
formats and the text that shows them.
-/

namespace ActorGlue

/-- A floating point number by its bits. -/
structure Double where
  bits : UInt64
  deriving DecidableEq, Repr

/-- A binary format by the sizes of its exponent and its fraction. -/
structure FloatFormat where
  exponentBits : Nat
  fractionBits : Nat
  deriving DecidableEq, Repr

namespace FloatFormat

/-- Two bytes. -/
def half : FloatFormat := ⟨5, 10⟩

/-- Four bytes. -/
def single : FloatFormat := ⟨8, 23⟩

/-- Eight bytes. -/
def double : FloatFormat := ⟨11, 52⟩

end FloatFormat

/-- What the bits of a number say. -/
inductive FloatParts where
  | nan
  | infinite (negative : Bool)
  | finite (negative : Bool) (significand : Nat) (exponent : Int)
  deriving DecidableEq, Repr

/-- Reads the bits of a format. -/
def FloatFormat.parts (format : FloatFormat) (bits : Nat) : FloatParts :=
  let fraction := bits % Nat.pow 2 format.fractionBits
  let biased := bits / Nat.pow 2 format.fractionBits % Nat.pow 2 format.exponentBits
  let negative := (bits / Nat.pow 2 (format.fractionBits + format.exponentBits)) % 2 = 1
  let bias : Int := Nat.pow 2 (format.exponentBits - 1) - 1
  if biased = Nat.pow 2 format.exponentBits - 1 then
    if fraction = 0 then .infinite negative else .nan
  else if biased = 0 then .finite negative fraction (1 - bias - format.fractionBits)
  else .finite negative (Nat.pow 2 format.fractionBits + fraction)
    (biased - bias - format.fractionBits)

namespace Double

def parts (x : Double) : FloatParts :=
  FloatFormat.double.parts x.bits.toNat

/-- The number that is not a number. -/
def nan : Double := ⟨0x7ff8000000000000⟩

/-- The double of a finite number whose significand has at most 53 bits and whose exponent is in
the range of numbers that are not subnormal. -/
def ofFinite (negative : Bool) (significand : Nat) (exponent : Int) : Double :=
  let sign := if negative then Nat.pow 2 63 else 0
  if significand = 0 then ⟨UInt64.ofNat sign⟩
  else
    let top := Nat.log2 significand
    let biased := (exponent + top + 1023).toNat
    let fraction := significand * Nat.pow 2 (52 - top) - Nat.pow 2 52
    ⟨UInt64.ofNat (sign + biased * Nat.pow 2 52 + fraction)⟩

/-- The double with the value of a number in a shorter format. -/
def ofFormat (format : FloatFormat) (bits : Nat) : Double :=
  match format.parts bits with
  | .nan => nan
  | .infinite negative => ⟨if negative then 0xfff0000000000000 else 0x7ff0000000000000⟩
  | .finite negative significand exponent => ofFinite negative significand exponent

/-- The integer that a double stands for, if it stands for one. -/
def toInt? (x : Double) : Option Int :=
  match x.parts with
  | .finite negative significand exponent =>
      let sign (n : Nat) : Int := if negative then -(n : Int) else n
      if 0 ≤ exponent then some (sign (significand * Nat.pow 2 exponent.toNat))
      else
        let unit := Nat.pow 2 (-exponent).toNat
        if significand % unit = 0 then some (sign (significand / unit)) else none
  | _ => none

/-- A double as a numerator and a denominator. The infinities lie beyond every finite double. -/
def ratio? (x : Double) : Option (Int × Nat) :=
  let sign (negative : Bool) (n : Nat) : Int := if negative then -(n : Int) else n
  match x.parts with
  | .nan => none
  | .infinite negative => some (sign negative (Nat.pow 2 1024), 1)
  | .finite negative significand exponent =>
      if 0 ≤ exponent then some (sign negative (significand * Nat.pow 2 exponent.toNat), 1)
      else some (sign negative significand, Nat.pow 2 (-exponent).toNat)

/-- Two doubles are equal as numbers: the zeros are, and what is not a number equals nothing. -/
def same (x y : Double) : Bool :=
  match x.toInt?, y.toInt? with
  | some m, some n => m = n
  | none, none => x = y && x.parts != .nan
  | _, _ => false

/-- An exponent with its sign and at least two digits. -/
def exponentText (n : Int) : String :=
  let digits := Nat.toDigits 10 n.natAbs
  (if n < 0 then "e-" else "e+") ++
    String.ofList (if digits.length < 2 then '0' :: digits else digits)

/-- Digits around a point: positional between a ten-thousandth and ten to the sixteenth, and with
an exponent outside. -/
def layout (d : Decimal.Digits) : String :=
  if -4 < d.point ∧ d.point ≤ 16 then
    if d.point ≤ 0 then
      String.ofList ("0.".toList ++ List.replicate (-d.point).toNat '0' ++ d.digits)
    else
      let whole := d.digits.take d.point.toNat
      let rest := d.digits.drop d.point.toNat
      String.ofList (whole ++ List.replicate (d.point.toNat - whole.length) '0' ++
        '.' :: (if rest.isEmpty then ['0'] else rest))
  else
    match d.digits with
    | [] => "0.0"
    | first :: rest =>
        String.ofList (first :: (if rest.isEmpty then [] else '.' :: rest)) ++
          exponentText (d.point - 1)

/-- The shortest text that reads back as the double. -/
def text (x : Double) : String :=
  match x.parts with
  | .nan => "nan"
  | .infinite negative => if negative then "-inf" else "inf"
  | .finite negative significand exponent =>
      (if negative then "-" else "") ++
        (if significand = 0 then "0.0"
          else layout (Decimal.Binary.shortest
            ⟨significand, exponent, significand = Nat.pow 2 52 ∧ -1074 < exponent⟩))

end Double

end ActorGlue
