import ActorGlue.Value.Basic

/-!
# Writing CBOR

Numbers take the shortest head, integers beyond 64 bits are tagged byte strings, and doubles take
eight bytes except those that are not finite. Lists, tuples, records and identifiers are arrays.
-/

namespace ActorGlue.Cbor

/-- Why a value has no encoding: its type has none, or it is inside of itself. -/
inductive EncodeFault where
  | unserializable (typeName : String)
  | cyclic
  deriving DecidableEq, Repr

namespace EncodeFault

/-- The wording of an encode fault. -/
def message : EncodeFault → String
  | .unserializable typeName => "cannot serialize type " ++ typeName
  | .cyclic => "cyclic data structure detected but value sharing is disabled"

/-- The value is of a type that has encodings. -/
def isValueFault : EncodeFault → Bool
  | .unserializable _ => false
  | .cyclic => true

end EncodeFault

/-- The first byte of an item: its major type and five bits of information. -/
def initialByte (major info : Nat) : UInt8 :=
  UInt8.ofNat (32 * major + info)

/-- The head of an item with an argument below two to the sixty-fourth. -/
def head (major argument : Nat) : Bytes :=
  if argument < 24 then [initialByte major argument]
  else if argument < Nat.pow 2 8 then initialByte major 24 :: Bytes.ofNat 1 argument
  else if argument < Nat.pow 2 16 then initialByte major 25 :: Bytes.ofNat 2 argument
  else if argument < Nat.pow 2 32 then initialByte major 26 :: Bytes.ofNat 4 argument
  else initialByte major 27 :: Bytes.ofNat 8 argument

/-- The bytes of a number without leading zeros. -/
def minimalBytes (n : Nat) : Bytes :=
  if n = 0 then [] else minimalBytes (n / 256) ++ [UInt8.ofNat (n % 256)]
termination_by n

/-- A number that is the argument of a major type, or else the content of a tag. -/
def number (major tag n : Nat) : Bytes :=
  if n < Nat.pow 2 64 then head major n
  else
    let bytes := minimalBytes n
    head 6 tag ++ head 2 bytes.length ++ bytes

/-- An integer; negative ones count down from minus one. -/
def integer (n : Int) : Bytes :=
  match n with
  | .ofNat n => number 0 2 n
  | .negSucc n => number 1 3 n

def double (x : Double) : Bytes :=
  match x.parts with
  | .nan => [0xf9, 0x7e, 0x00]
  | .infinite negative => [0xf9, if negative then 0xfc else 0x7c, 0x00]
  | .finite .. => 0xfb :: Bytes.ofNat 8 x.bits.toNat

def text (value : String) : Bytes :=
  let bytes := value.toUTF8.toList
  head 3 bytes.length ++ bytes

def byteString (bytes : Bytes) : Bytes :=
  head 2 bytes.length ++ bytes

/-- An identifier as the array of its parts. -/
def cid (cid : Cid) : Bytes :=
  head 4 4 ++ integer cid.codec ++ integer cid.hash ++ byteString cid.digest ++
    integer cid.version

mutual

def encode : Value → Except EncodeFault Bytes
  | .null => .ok [0xf6]
  | .bool value => .ok [if value then 0xf5 else 0xf4]
  | .int value => .ok (integer value)
  | .float value => .ok (double value)
  | .text value => .ok (text value)
  | .bytes value => .ok (byteString value)
  | .list items => do return head 4 items.length ++ (← encodeAll items)
  | .tuple items => do return head 4 items.length ++ (← encodeAll items)
  | .map entries => do return head 5 entries.length ++ (← encodeEntries entries)
  | .tag number content => do return head 6 number ++ (← encode content)
  | .simple code => .ok (head 7 code)
  | .undefined => .ok [0xf7]
  | .breakMark => .error (.unserializable (Value.typeName .breakMark))
  | .cid value => .ok (cid value)
  | .record _ fields => do return head 4 fields.length ++ (← encodeFields fields)
  | .shared _ => .error .cyclic
  | .foreign => .error (.unserializable (Value.typeName .foreign))

/-- The encodings of several values, one after the other. -/
def encodeAll : List Value → Except EncodeFault Bytes
  | [] => .ok []
  | item :: rest => do return (← encode item) ++ (← encodeAll rest)

/-- The encodings of entries, each key before its value. -/
def encodeEntries : List (Value × Value) → Except EncodeFault Bytes
  | [] => .ok []
  | (key, value) :: rest => do
      return (← encode key) ++ (← encode value) ++ (← encodeEntries rest)

def encodeFields : List (String × Value) → Except EncodeFault Bytes
  | [] => .ok []
  | (_, value) :: rest => do return (← encode value) ++ (← encodeFields rest)

end

end ActorGlue.Cbor
