import ActorGlue.Proofs.Cbor.RoundTrip
import ActorGlue.Proofs.Machine.Steps

/-!
# Blocks under their own addresses

The address of a block is made from its bytes, and its codec, hash and digest size can be read off
it again. So it can be told from an address and bytes alone whether they belong together. A store
that has only blocks under their own addresses stays so when blocks are put into it, also when two
blocks have the same address.
-/

namespace ActorGlue

namespace Blake2b

theorem length_compress (state : List UInt64) (block : Bytes) (count : Nat) (last : Bool) :
    (compress state block count last).length = state.length := by
  simp [compress]

theorem length_absorb (total : Nat) (state : List UInt64) (done : Nat) (blocks : List Bytes) :
    (absorb total state done blocks).length = state.length := by
  fun_induction absorb total state done blocks with
  | case1 => rfl
  | case2 state done block => exact length_compress _ _ _ _
  | case3 state done block rest _ ih => rw [ih, length_compress]

/-- A digest has the size that was asked for. -/
theorem length_hash {size : Nat} (bounded : size ≤ 64) (message : Bytes) :
    (hash size message).length = size := by
  have words : ∀ state : List UInt64,
      (state.flatMap fun word => (Bytes.ofNat 8 word.toNat).reverse).length = 8 * state.length := by
    intro state
    induction state with
    | nil => rfl
    | cons word rest ih =>
      rw [List.flatMap_cons, List.length_append, ih, List.length_reverse, Bytes.length_ofNat,
        List.length_cons]
      omega
  have start : (start size).length = 8 := rfl
  rw [hash, List.length_take, words, length_absorb, start]
  omega

end Blake2b

namespace Cid

variable {codec : Nat} {data : Bytes} {hash size : Int} {cid : Cid}

/-- The identifier is the address of the bytes: it is of version one, and what it says about
codec, hash and digest size gives it back. -/
def Addresses (cid : Cid) (data : Bytes) : Prop :=
  cid.version = 1 ∧ ofBlock cid.codec data cid.hash cid.digest.length = .ok cid

theorem ofBlock_eq_ok (h : ofBlock codec data hash size = .ok cid) :
    hash = blake2b256 ∧ 1 ≤ size ∧ size ≤ 64 ∧
      cid = ⟨codec, blake2b256, Blake2b.hash size.toNat data, 1⟩ := by
  unfold ofBlock at h
  split at h
  · cases h
  · split at h
    · cases h
    · cases h
      exact ⟨by simpa using ‹¬hash ≠ _›, by omega, by omega, rfl⟩

/-- Every address that is made is the address of the bytes that it was made from. -/
theorem addresses_of_ofBlock (h : ofBlock codec data hash size = .ok cid) :
    cid.Addresses data := by
  obtain ⟨known, positive, bounded, rfl⟩ := ofBlock_eq_ok h
  have sized : ((Blake2b.hash size.toNat data).length : Int) = size := by
    rw [Blake2b.length_hash (by omega)]
    omega
  refine ⟨rfl, ?_⟩
  rw [← h, known]
  simp only [sized]

end Cid

namespace Store

variable {store : Store}

/-- Every block is kept under its own address. -/
def Addressed (store : Store) : Prop :=
  ∀ block ∈ store.blocks, block.1.Addresses block.2

theorem Addressed.get? (addressed : store.Addressed) {cid : Cid} {data : Bytes}
    (found : store.get? cid = some data) : cid.Addresses data := by
  obtain ⟨before, after, same, _⟩ := List.lookup_eq_some_iff.mp found
  exact addressed (cid, data) (by simp [same])

theorem Addressed.insert (addressed : store.Addressed) {cid : Cid} {data : Bytes}
    (own : cid.Addresses data) : (store.insert cid data).Addressed := by
  intro block member
  unfold Store.insert at member
  split at member
  · obtain ⟨old, among, rfl⟩ := List.mem_map.mp member
    split
    · exact own
    · exact addressed old among
  · rcases List.mem_append.mp member with among | new
    · exact addressed block among
    · rw [List.mem_singleton.mp new]
      exact own

theorem contains_of_insert {cid other : Cid} (contained : store.contains other) (data : Bytes) :
    (store.insert cid data).contains other := by
  rw [contains, get?_insert]
  split
  · rfl
  · exact contained

/-- A store that keeps blocks accepts a block under an address exactly if it is its own. -/
theorem putKeyed_eq_ok_iff (keeps : store.mode = .keep) (cid : Cid) (data : Bytes) :
    (store.putKeyed cid data).1 = .ok () ↔ cid.Addresses data := by
  unfold putKeyed put
  simp only [keeps]
  cases made : Cid.ofBlock cid.codec data cid.hash cid.digest.length with
  | error fault =>
    constructor
    · intro h
      cases h
    · intro own
      rw [own.2] at made
      cases made
  | ok actual =>
    constructor
    · intro h
      by_cases same : actual = cid
      · exact same ▸ Cid.addresses_of_ofBlock made
      · simp [same] at h
    · intro own
      rw [own.2] at made
      cases made
      simp

end Store

end ActorGlue
