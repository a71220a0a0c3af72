import ActorGlue.Proofs.Machine.Reachable

/-!
# What a sandbox keeps

The operations of a sandbox one after the other, with the blocks that they are given for the table
of parameters and results. Whatever the operations are and wherever they stop, every block of the
store is under its own address, no block is lost, and the table has exactly the blocks that were
given, each under the id that it was given.
-/

namespace ActorGlue

open Glue

namespace BlockTable

theorem addAll_append (table : BlockTable) (first second : List Bytes) :
    table.addAll (first ++ second) = (table.addAll first).addAll second :=
  List.foldl_append

/-- The counter is one more than the number of blocks that were added to an empty table. -/
theorem next_addAll (blocks : List Bytes) :
    (BlockTable.addAll .empty blocks).next = blocks.length + 1 := by
  induction blocks using List.reverseRecOn with
  | nil => rfl
  | append_singleton blocks data ih =>
    rw [addAll_append, List.length_append]
    exact congrArg (· + 1) ih

/-- Blocks that are added to an empty table have the ids from one on, in their order. -/
theorem get?_addAll_eq_some_iff {blocks : List Bytes} {id : Int} {data : Bytes} :
    (BlockTable.addAll .empty blocks).get? id = some data ↔
      ∃ index : Nat, id = index + 1 ∧ blocks[index]? = some data := by
  induction blocks using List.reverseRecOn with
  | nil => simp [addAll, get?, empty]
  | append_singleton blocks last ih =>
    rw [addAll_append]
    change ((BlockTable.addAll .empty blocks).add last).get? id = _ ↔ _
    rw [get?_add, next_addAll]
    split
    · rename_i new
      constructor
      · rintro ⟨⟩
        exact ⟨blocks.length, by omega, by simp⟩
      · rintro ⟨index, same, found⟩
        obtain rfl : index = blocks.length := by omega
        simpa using found
    · rename_i old
      rw [ih]
      refine exists_congr fun index => and_congr_right fun same => ?_
      rw [List.getElem?_append]
      split
      · rfl
      · rename_i outside
        rw [List.getElem?_eq_none (by omega), List.getElem?_eq_none (by simp; omega)]

end BlockTable

namespace Sandbox

namespace Runs

variable {first last : Sandbox} {given : List Bytes}

/-- The table has the blocks that it had and those that were given since. -/
theorem blocks (goes : Runs first given last) : last.blocks = first.blocks.addAll given := by
  induction goes with
  | still => rfl
  | step _ step ih => rw [step.grows.blocks, ih, BlockTable.addAll_append]

/-- No block is removed from the store. -/
theorem contains (goes : Runs first given last) {cid : Cid} (contained : first.store.contains cid) :
    last.store.contains cid := by
  induction goes with
  | still => exact contained
  | step _ step ih =>
    rcases step.grows.store with kept | ⟨other, data, -, inserted⟩
    · rw [kept]
      exact ih
    · rw [inserted]
      exact Store.contains_of_insert ih data

/-- Blocks stay under their own addresses. -/
theorem addressed (goes : Runs first given last) (begun : first.store.Addressed) :
    last.store.Addressed := by
  induction goes with
  | still => exact begun
  | step _ step ih =>
    rcases step.grows.store with kept | ⟨cid, data, own, inserted⟩
    · rw [kept]
      exact ih
    · rw [inserted]
      exact ih.insert own

end Runs

end Sandbox

end ActorGlue
