import ActorGlue.Content.Cid

/-!
# Block stores

Blocks by their content identifiers. A store can be made to refuse blocks or to drop them.
-/

namespace ActorGlue

/-- What a store does with new blocks. -/
inductive PutMode where
  | keep
  | drop
  | refuse (reason : String)
  deriving DecidableEq, Repr

/-- Blocks in the order they were first put. -/
structure Store where
  blocks : List (Cid × Bytes) := []
  mode : PutMode := .keep
  deriving DecidableEq, Repr

/-- Why a store does not do what it is asked. -/
inductive StoreFault where
  | invalidCid (text : String)
  | mismatched (expected actual : Cid)
  | refused (reason : String)
  | unaddressed (fault : AddressFault)
  deriving DecidableEq, Repr

namespace StoreFault

/-- The word for a kind of fault. -/
def kind : StoreFault → String
  | .invalidCid _ => "InvalidCid"
  | .mismatched .. => "MismatchedCid"
  | .refused _ => "PutFailed"
  | .unaddressed _ => "PutFailed"

/-- The wording of a fault. -/
def message : StoreFault → String
  | .invalidCid text => "get failed with IllegalArgument on CID '" ++ text ++ "'"
  | .mismatched expected actual =>
      "put block with cid " ++ expected.text ++ " but has cid " ++ actual.text
  | .refused reason => "put failed with " ++ reason
  | .unaddressed fault => fault.message

end StoreFault

namespace Store

/-- The block of an identifier. -/
def get? (store : Store) (cid : Cid) : Option Bytes :=
  store.blocks.lookup cid

/-- There is a block of an identifier. -/
def contains (store : Store) (cid : Cid) : Bool :=
  (store.get? cid).isSome

/-- The number of blocks. -/
def size (store : Store) : Nat :=
  store.blocks.length

/-- The store with a block under an identifier. -/
def insert (store : Store) (cid : Cid) (data : Bytes) : Store :=
  if store.contains cid then
    { store with
      blocks := store.blocks.map fun block => if block.1 = cid then (cid, data) else block }
  else { store with blocks := store.blocks ++ [(cid, data)] }

/-- Puts a block under its own identifier. -/
def put (store : Store) (codec : Nat) (data : Bytes) (hash : Int := blake2b256)
    (size : Int := digestSize) : Except StoreFault (Cid × Store) :=
  match store.mode with
  | .refuse reason => .error (.refused reason)
  | .keep =>
      match Cid.ofBlock codec data hash size with
      | .ok cid => .ok (cid, store.insert cid data)
      | .error _ => .error (.refused "IllegalArgument")
  | .drop =>
      match Cid.ofBlock codec data hash size with
      | .ok cid => .ok (cid, store)
      | .error fault => .error (.unaddressed fault)

/-- Puts a block that should have a known identifier. The block is kept under its own identifier
also when that is a different one. -/
def putKeyed (store : Store) (cid : Cid) (data : Bytes) : Except StoreFault Unit × Store :=
  match store.put cid.codec data cid.hash cid.digest.length with
  | .error fault => (.error fault, store)
  | .ok (actual, store) =>
      (if actual = cid then .ok () else .error (.mismatched cid actual), store)

end Store

end ActorGlue
