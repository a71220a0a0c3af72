import ActorGlue.Value.Basic

/-!
# Values as bytes

The bytes that a value stands for where bytes are wanted. A number stands for that many zeros,
and a sequence of small numbers for one byte each.
-/

namespace ActorGlue

/-- Why a value stands for no bytes. -/
inductive BytesFault where
  | textWithoutEncoding
  | inconvertible (typeName : String)
  | negativeCount
  | outOfRange
  | notANumber (typeName : String)
  deriving DecidableEq, Repr

namespace BytesFault

/-- The wording of a fault. -/
def message : BytesFault → String
  | .textWithoutEncoding => "string argument without an encoding"
  | .inconvertible typeName => "cannot convert '" ++ typeName ++ "' object to bytes"
  | .negativeCount => "negative count"
  | .outOfRange => "bytes must be in range(0, 256)"
  | .notANumber typeName => "'" ++ typeName ++ "' object cannot be interpreted as an integer"

/-- The value is of the right type, but not itself right. -/
def isValueFault : BytesFault → Bool
  | .negativeCount | .outOfRange => true
  | _ => false

end BytesFault

namespace Value

/-- The byte of a small number. -/
def toByte : Value → Except BytesFault UInt8
  | .bool value => .ok (if value then 1 else 0)
  | .int n => if 0 ≤ n ∧ n < 256 then .ok (UInt8.ofNat n.toNat) else .error .outOfRange
  | value => .error (.notANumber value.typeName)

/-- The bytes that a value stands for. -/
def toBytes : Value → Except BytesFault Bytes
  | .bytes value => .ok value
  | .text _ => .error .textWithoutEncoding
  | .bool value => .ok (if value then [0] else [])
  | .int n => if n < 0 then .error .negativeCount else .ok (List.replicate n.toNat 0)
  | .list items => items.mapM toByte
  | .tuple items => items.mapM toByte
  | .simple code => .ok [UInt8.ofNat code]
  | .map entries => entries.mapM fun entry => entry.1.toByte
  | value => .error (.inconvertible value.typeName)

end Value

end ActorGlue
