import ActorGlue.Text.Quoted

/-!
# Bytes

Byte strings, their hexadecimal text, and the numbers they stand for with the most significant
byte first.
-/

namespace ActorGlue

/-- A byte string. -/
abbrev Bytes := List UInt8

namespace Bytes

/-- Two hexadecimal digits for each byte. -/
def hex (bytes : Bytes) : String :=
  String.ofList (bytes.flatMap fun byte => Text.hexDigits 2 byte.toNat)

/-- The value of a hexadecimal digit. -/
def hexValue? (c : Char) : Option Nat :=
  if '0' ≤ c ∧ c ≤ '9' then some (c.toNat - '0'.toNat)
  else if 'a' ≤ c ∧ c ≤ 'f' then some (c.toNat - 'a'.toNat + 10)
  else if 'A' ≤ c ∧ c ≤ 'F' then some (c.toNat - 'A'.toNat + 10)
  else none

/-- The bytes of a hexadecimal text, two digits for each. -/
def ofHex? : List Char → Option Bytes
  | [] => some []
  | high :: low :: rest => do
      return UInt8.ofNat (16 * (← hexValue? high) + (← hexValue? low)) :: (← ofHex? rest)
  | [_] => none

/-- The number that bytes stand for, most significant byte first. -/
def toNat (bytes : Bytes) : Nat :=
  bytes.foldl (fun n byte => 256 * n + byte.toNat) 0

/-- The last `width` bytes of a number, most significant first. -/
def ofNat : Nat → Nat → Bytes
  | 0, _ => []
  | width + 1, n => ofNat width (n / 256) ++ [UInt8.ofNat (n % 256)]

def ofAscii (text : List Char) : Bytes :=
  text.map fun c => UInt8.ofNat c.toNat

/-- The first blocks of a size; the last ones are short if the bytes run out. -/
def blocks (size : Nat) : Nat → Bytes → List Bytes
  | 0, _ => []
  | count + 1, bytes => bytes.take size :: blocks size count (bytes.drop size)

end Bytes

end ActorGlue
