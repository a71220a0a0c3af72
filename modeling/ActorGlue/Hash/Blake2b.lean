import ActorGlue.Bytes

/-!
# BLAKE2b

The hash that blocks are addressed by, with a digest of 1 to 64 bytes. A message is cut into
blocks of 128 bytes, the last one filled with zeros, and each block is mixed into eight words of
64 bits together with the number of bytes so far.
-/

namespace ActorGlue.Blake2b

/-- The words before the first block, apart from the parameters. -/
def initial : List UInt64 :=
  [
    0x6a09e667f3bcc908, 0xbb67ae8584caa73b, 0x3c6ef372fe94f82b, 0xa54ff53a5f1d36f1,
    0x510e527fade682d1, 0x9b05688c2b3e6c1f, 0x1f83d9abfb41bd6b, 0x5be0cd19137e2179]

/-- The orders in which the rounds take the words of a block. -/
def orders : List (List Nat) :=
  [
    [0, 1, 2, 3, 4, 5, 6, 7, 8, 9, 10, 11, 12, 13, 14, 15],
    [14, 10, 4, 8, 9, 15, 13, 6, 1, 12, 0, 2, 11, 7, 5, 3],
    [11, 8, 12, 0, 5, 2, 15, 13, 10, 14, 3, 6, 7, 1, 9, 4],
    [7, 9, 3, 1, 13, 12, 11, 14, 2, 6, 5, 10, 4, 0, 15, 8],
    [9, 0, 5, 7, 2, 4, 10, 15, 14, 1, 11, 12, 6, 8, 3, 13],
    [2, 12, 6, 10, 0, 11, 8, 3, 4, 13, 7, 5, 15, 14, 1, 9],
    [12, 5, 1, 15, 14, 13, 4, 10, 0, 7, 6, 3, 9, 2, 8, 11],
    [13, 11, 7, 14, 12, 1, 3, 9, 5, 0, 15, 4, 8, 6, 2, 10],
    [6, 15, 14, 9, 11, 3, 0, 8, 12, 2, 13, 7, 1, 4, 10, 5],
    [10, 2, 8, 4, 7, 6, 1, 5, 15, 11, 9, 14, 3, 12, 13, 0]]

/-- The orders of the twelve rounds. -/
def rounds : List (List Nat) :=
  orders ++ orders.take 2

/-- A word rotated to the right. -/
def rotate (word : UInt64) (count : UInt64) : UInt64 :=
  (word >>> count) ||| (word <<< (64 - count))

/-- Mixes two words of a block into four of the state. -/
def mix (v : Array UInt64) (a b c d : Nat) (x y : UInt64) : Array UInt64 :=
  let va := v.getD a 0 + v.getD b 0 + x
  let vd := rotate (v.getD d 0 ^^^ va) 32
  let vc := v.getD c 0 + vd
  let vb := rotate (v.getD b 0 ^^^ vc) 24
  let va := va + vb + y
  let vd := rotate (vd ^^^ va) 16
  let vc := vc + vd
  let vb := rotate (vb ^^^ vc) 63
  (((v.setIfInBounds a va).setIfInBounds b vb).setIfInBounds c vc).setIfInBounds d vd

/-- The places that the eight mixes of a round work on: columns, then diagonals. -/
def lanes : List (Nat × Nat × Nat × Nat) :=
  [(0, 4, 8, 12), (1, 5, 9, 13), (2, 6, 10, 14), (3, 7, 11, 15),
    (0, 5, 10, 15), (1, 6, 11, 12), (2, 7, 8, 13), (3, 4, 9, 14)]

/-- One round: each mix takes the next two words in the order of the round. -/
def round (words : Array UInt64) (v : Array UInt64) (order : List Nat) : Array UInt64 :=
  (lanes.zipIdx.foldl
    (fun v ((a, b, c, d), i) =>
      mix v a b c d (words.getD (order.getD (2 * i) 0) 0)
        (words.getD (order.getD (2 * i + 1) 0) 0))
    v)

/-- The number of bytes with the least significant one first. -/
def word (bytes : Bytes) : UInt64 :=
  UInt64.ofNat (Bytes.toNat bytes.reverse)

/-- Mixes a block into the state, after `count` bytes in all. -/
def compress (state : List UInt64) (block : Bytes) (count : Nat) (last : Bool) : List UInt64 :=
  let words := ((Bytes.blocks 8 16 block).map word).toArray
  let v := (state ++ initial).toArray
  let v := v.setIfInBounds 12 (v.getD 12 0 ^^^ UInt64.ofNat count)
  let v := v.setIfInBounds 13 (v.getD 13 0 ^^^ UInt64.ofNat (count / Nat.pow 2 64))
  let v := if last then v.setIfInBounds 14 (~~~ (v.getD 14 0)) else v
  let v := rounds.foldl (round words) v
  state.zipIdx.map fun (word, i) => word ^^^ v.getD i 0 ^^^ v.getD (i + 8) 0

/-- Mixes in the blocks of a message after `done` bytes; the last block is filled with zeros. -/
def absorb (total : Nat) : List UInt64 → Nat → List Bytes → List UInt64
  | state, _, [] => state
  | state, _, [block] =>
      compress state (block ++ List.replicate (128 - block.length) 0) total true
  | state, done, block :: rest => absorb total (compress state block (done + 128) false)
      (done + 128) rest

/-- The state before the first block for a digest size. -/
def start (size : Nat) : List UInt64 :=
  match initial with
  | first :: rest => (first ^^^ 0x01010000 ^^^ UInt64.ofNat size) :: rest
  | [] => []

/-- The hash of a message with a digest of the given size. -/
def hash (size : Nat) (message : Bytes) : Bytes :=
  let count := max 1 ((message.length + 127) / 128)
  let state := absorb message.length (start size) 0 (Bytes.blocks 128 count message)
  (state.flatMap fun word => (Bytes.ofNat 8 word.toNat).reverse).take size

end ActorGlue.Blake2b
