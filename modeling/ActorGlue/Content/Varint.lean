import ActorGlue.Bytes

/-!
# Variable-length numbers

A number is written seven bits at a time, the least significant ones first, and every byte but
the last has its high bit set.
-/

namespace ActorGlue.Varint

/-- The bytes of a number. -/
def encode (n : Nat) : Bytes :=
  if n < 128 then [UInt8.ofNat n] else UInt8.ofNat (n % 128 + 128) :: encode (n / 128)
termination_by n

/-- The number at the start of bytes, and the bytes after it. -/
def decode? : Bytes → Option (Nat × Bytes)
  | [] => none
  | byte :: rest =>
      if byte.toNat < 128 then some (byte.toNat, rest)
      else (decode? rest).map fun (n, rest) => (byte.toNat - 128 + 128 * n, rest)

end ActorGlue.Varint
