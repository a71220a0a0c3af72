import ActorGlue.Content.Base32
import ActorGlue.Content.Varint
import ActorGlue.Glue.Lower
import ActorGlue.Hash.Blake2b

/-!
# Content identifiers

The address of a block: the codec of its bytes, the hash that was taken of them and the digest.
-/

namespace ActorGlue

/-- A content identifier. -/
structure Cid where
  codec : Nat
  hash : Nat
  digest : Bytes
  version : Nat := 1
  deriving DecidableEq, Repr

/-- Why bytes have no address. -/
inductive AddressFault where
  | unsupportedHash (code : Int)
  | digestSize
  deriving DecidableEq, Repr

/-- The wording of an address fault. -/
def AddressFault.message : AddressFault → String
  | .unsupportedHash code =>
      "unsupported multihash code 0x" ++ (if code < 0 then "-" else "") ++
        String.ofList (Nat.toDigits 16 code.natAbs)
  | .digestSize => "digest_size must be between 1 and 64 bytes"

namespace Cid

/-- The address of bytes. Only one hash is known, with digests of 1 to 64 bytes. -/
def ofBlock (codec : Nat) (data : Bytes) (hash : Int := blake2b256)
    (size : Int := digestSize) : Except AddressFault Cid :=
  if hash ≠ blake2b256 then .error (.unsupportedHash hash)
  else if size < 1 ∨ 64 < size then .error .digestSize
  else .ok ⟨codec, blake2b256, Blake2b.hash size.toNat data, 1⟩

/-- The bytes of an identifier: four numbers, then the digest. -/
def bytes (cid : Cid) : Bytes :=
  Varint.encode cid.version ++ Varint.encode cid.codec ++ Varint.encode cid.hash ++
    Varint.encode cid.digest.length ++ cid.digest

/-- The text of an identifier. -/
def text (cid : Cid) : String :=
  String.ofList ('b' :: Base32.encode cid.bytes)

end Cid

end ActorGlue
