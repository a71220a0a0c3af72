import ActorGlue.Value.Shown

/-!
# Reading CBOR

Reads one item and leaves the bytes after it. Heads need not be the shortest, and strings, arrays
and maps may end with a break instead of having a length. Running out of bytes is a fault of its
own kind.
-/

namespace ActorGlue.Cbor

/-- Why bytes are no item. -/
inductive DecodeFault where
  | ended (wanted left : Nat)
  | headInfo (info : Nat)
  | reserved (info : Nat)
  | badText
  | badNumber (found : String)
  | unwritable
  | badByteChunk
  | badTextChunk
  | excessive (kind : String) (size : Nat)
  deriving DecidableEq, Repr

namespace DecodeFault

/-- The wording of a decode fault. -/
def message : DecodeFault → String
  | .ended wanted left =>
      "premature end of stream (expected to read " ++ toString wanted ++ " bytes, got " ++
        toString left ++ " instead)"
  | .headInfo info =>
      "unknown unsigned integer subtype 0x" ++ String.ofList (Nat.toDigits 16 info)
  | .reserved info =>
      "Undefined Reserved major type 7 subtype 0x" ++ String.ofList (Nat.toDigits 16 info)
  | .badText => "error decoding unicode string"
  | .badNumber found => "invalid bignum value " ++ found
  | .unwritable => Text.NumeralFault.unwritable.message
  | .badByteChunk => "non-bytestring found in indefinite length bytestring"
  | .badTextChunk => "non-string found in indefinite length string"
  | .excessive kind size =>
      "excessive " ++ kind ++ " size 0x" ++
        String.ofList ((Nat.toDigits 16 size).map Char.toUpper)

/-- The bytes ran out. -/
def isEnd : DecodeFault → Bool
  | .ended .. => true
  | _ => false

end DecodeFault

/-- Takes what it needs from the front of the bytes. -/
abbrev Reader := StateT Bytes (Except DecodeFault)

namespace Reader

/-- The next byte. -/
def next : Reader UInt8
  | [] => .error (.ended 1 0)
  | byte :: rest => .ok (byte, rest)

/-- The next bytes. -/
def take (count : Nat) : Reader Bytes := fun bytes =>
  if count ≤ bytes.length then .ok (bytes.take count, bytes.drop count)
  else .error (.ended count bytes.length)

/-- The next bytes as a number. -/
def takeNat (count : Nat) : Reader Nat := do
  return Bytes.toNat (← take count)

/-- The argument that the information bits of a head announce. -/
def argument (info : Nat) : Reader Nat :=
  if info < 24 then pure info
  else if info = 24 then takeNat 1
  else if info = 25 then takeNat 2
  else if info = 26 then takeNat 4
  else if info = 27 then takeNat 8
  else throw (.headInfo info)

/-- The length that the information bits of a head announce; there is none if the end is marked by
a break. -/
def length? (info : Nat) : Reader (Option Nat) :=
  if info = 31 then pure none else some <$> argument info

/-- A bound on the number of items that are left: each of them takes a byte. -/
def bound : Reader Nat := do
  return (← get).length + 1

/-- Strings are read in pieces of at most this size. -/
def pieceSize : Nat := 65536

/-- The next bytes, taken piece by piece. -/
def takePieces (count : Nat) : Reader Bytes :=
  if count ≤ pieceSize then take count
  else do
    let piece ← take pieceSize
    return piece ++ (← takePieces (count - pieceSize))
termination_by count
decreasing_by simp only [pieceSize] at *; omega

/-- The longest array that can be addressed. -/
def maxArray : Nat := Nat.pow 2 63 - 1

/-- The longest string that can be addressed beside the 33 bytes that every string takes. -/
def maxString : Nat := maxArray - 33

/-- The bytes of a string of a length. -/
def content (kind : String) (length : Nat) : Reader Bytes :=
  if maxString < length then throw (.excessive kind length) else takePieces length

def textOf (bytes : Bytes) : Reader String :=
  match String.fromUTF8? bytes.toByteArray with
  | some text => pure text
  | none => throw .badText

/-- The contents of the chunks of a string up to a break. Each chunk has a length. -/
def chunks {α : Type} (major : Nat) (bad : DecodeFault) (read : Nat → Reader α) :
    Nat → Reader (List α)
  | 0 => throw (.ended 1 0)
  | steps + 1 => do
      let first ← next
      if first = 0xff then return []
      if first.toNat / 32 ≠ major ∨ first.toNat % 32 = 31 then throw bad
      let chunk ← read (← argument (first.toNat % 32))
      return chunk :: (← chunks major bad read steps)

def byteString (info : Nat) : Reader Bytes := do
  let read := content "bytestring"
  match ← length? info with
  | some length => read length
  | none => return (← chunks 2 .badByteChunk read (← bound)).flatten

def text (info : Nat) : Reader String := do
  let read (length : Nat) : Reader String := do textOf (← content "string" length)
  match ← length? info with
  | some length => read length
  | none => return String.join (← chunks 3 .badTextChunk read (← bound))

section Sequences

variable (read : Reader Value) (readKey : Reader Value)

/-- A number of items. -/
def items : Nat → Reader (List Value)
  | 0 => pure []
  | count + 1 => do
      let item ← read
      return item :: (← items count)

/-- Items up to a break. -/
def itemsToBreak : Nat → Reader (List Value)
  | 0 => throw (.ended 1 0)
  | steps + 1 => do
      match ← read with
      | .breakMark => return []
      | item => return item :: (← itemsToBreak steps)

/-- A number of entries. -/
def entries : Nat → Reader (List (Value × Value))
  | 0 => pure []
  | count + 1 => do
      let key ← readKey
      let value ← read
      return (key, value) :: (← entries count)

/-- Entries up to a break in the place of a key. -/
def entriesToBreak : Nat → Reader (List (Value × Value))
  | 0 => throw (.ended 1 0)
  | steps + 1 => do
      match ← readKey with
      | .breakMark => return []
      | key =>
          let value ← read
          return (key, value) :: (← entriesToBreak steps)

/-- The items of an array. -/
def array (info : Nat) : Reader (List Value) := do
  match ← length? info with
  | some count =>
      if maxArray < count then throw (.excessive "array" count)
      items read count
  | none => itemsToBreak read (← bound)

/-- A map. -/
def mapping (info : Nat) : Reader Value := do
  match ← length? info with
  | some count => return .ofEntries (← entries read readKey count)
  | none => return .ofEntries (← entriesToBreak read readKey (← bound))

/-- What is said about a value that makes no integer. -/
def notBytes (frozen : Bool) (value : Value) : DecodeFault :=
  if value.isWritable then .badNumber (value.quoted frozen) else .unwritable

/-- The value of a tag, `frozen` inside of keys. Two tags make integers of byte strings. -/
def tagValue (frozen : Bool) (number : Nat) (content : Value) : Reader Value :=
  if number = 2 ∨ number = 3 then
    match content with
    | .bytes found =>
        let n : Int := Bytes.toNat found
        return .int (if number = 2 then n else -1 - n)
    | other => throw (notBytes frozen other)
  else return .tag number content

/-- A tagged item, `frozen` inside of keys. -/
def tagged (frozen : Bool) (info : Nat) : Reader Value := do
  let number ← argument info
  tagValue frozen number (← read)

end Sequences

/-- An item of the last major type. A double of eight bytes keeps its bits. -/
def special (info : Nat) : Reader Value := do
  if info = 20 then return .bool false
  else if info = 21 then return .bool true
  else if info = 22 then return .null
  else if info = 23 then return .undefined
  else if info = 24 then return .simple (← takeNat 1)
  else if info = 25 then return .float (.ofFormat .half (← takeNat 2))
  else if info = 26 then return .float (.ofFormat .single (← takeNat 4))
  else if info = 27 then return .float ⟨UInt64.ofNat (← takeNat 8)⟩
  else if info = 28 ∨ info = 29 ∨ info = 30 then throw (.reserved info)
  else if info = 31 then return .breakMark
  else return .simple info

/-- One item; arrays inside of keys cannot be changed. Each item takes a byte, so the number of
bytes bounds the depth. -/
def item : Nat → Bool → Reader Value
  | 0, _ => throw (.ended 1 0)
  | depth + 1, frozen => do
      let first ← next
      let info := first.toNat % 32
      match first.toNat / 32 with
      | 0 => return .int (← argument info)
      | 1 => return .int (-1 - (← argument info))
      | 2 => return .bytes (← byteString info)
      | 3 => return .text (← text info)
      | 4 =>
          let found ← array (item depth frozen) info
          return if frozen then .tuple found else .list found
      | 5 => mapping (item depth frozen) (item depth true) info
      | 6 => tagged (item depth frozen) frozen info
      | _ => special info

end Reader

/-- The value at the start of bytes; what follows it is ignored. -/
def decode (bytes : Bytes) : Except DecodeFault Value :=
  (Reader.item (bytes.length + 1) false).run' bytes

end ActorGlue.Cbor
