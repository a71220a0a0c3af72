import ActorGlue.Bytes

/-!
# Base 32

Bytes as lower-case letters and the digits from two to seven, five bits at a time. The last
symbol is filled with zero bits, and there is no padding after it.
-/

namespace ActorGlue.Base32

/-- The eight bits of a byte, most significant first. -/
def bits (byte : UInt8) : List Bool :=
  [7, 6, 5, 4, 3, 2, 1, 0].map byte.toNat.testBit

/-- The number that bits stand for, most significant first. -/
def number (bits : List Bool) : Nat :=
  bits.foldl (fun n bit => 2 * n + bit.toNat) 0

/-- The symbol of a number below 32. -/
def symbol (n : Nat) : Char :=
  if n < 26 then Char.ofNat ('a'.toNat + n) else Char.ofNat ('2'.toNat + (n - 26))

/-- One symbol for every five bits. -/
def symbols : List Bool → List Char
  | [] => []
  | [a] => [symbol (number [a, false, false, false, false])]
  | [a, b] => [symbol (number [a, b, false, false, false])]
  | [a, b, c] => [symbol (number [a, b, c, false, false])]
  | [a, b, c, d] => [symbol (number [a, b, c, d, false])]
  | a :: b :: c :: d :: e :: rest => symbol (number [a, b, c, d, e]) :: symbols rest

/-- The text of bytes. -/
def encode (bytes : Bytes) : List Char :=
  symbols (bytes.flatMap bits)

end ActorGlue.Base32
