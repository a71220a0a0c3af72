import ActorGlue.Proofs.Content.Addressing
import ActorGlue.Proofs.Machine.Atomicity

/-!
# Reachable sandboxes

What a sandbox can come to by its own operations: blocks are put into the store, the root is set,
parameters are added, states are loaded and saved, and methods are invoked. Whether an operation
succeeds or stops early, it adds at most one block to the store and at most one to the table. In
all of these sandboxes the root is the address of a block of the store.
-/

namespace ActorGlue

open Glue

/-- The block that an invocation gives to the table: the result of the selected method, if it
comes to one. -/
def Machine.delivered (machine : Machine) (table : DispatchTable) (method : Value) (params : Int)
    (sandbox : Sandbox) : Option Bytes := do
  let case ← table.selected? method
  let value ← (machine.execute case.block [] params (invoked sandbox method)).1.toOption
  value.toBytes.toOption

section Delivery

variable {machine : Machine} {program : Program} {symbol : String} {table : DispatchTable}
  {method : Value} {case : Case} {params : Int} {sandbox : Sandbox}

/-- What is delivered is the result of the entry point, told from the sandbox. -/
theorem Machine.delivered_eq (tabled : (lower program symbol).table = some table)
    (runs : machine.RunsOver (lower program symbol))
    (selected : table.selected? method = some case) :
    machine.delivered table method params sandbox =
      (machine.evaluate case.entry params sandbox).toOption.bind (·.result) := by
  have performs := execute_performs runs case.entry table.actor.name params
  obtain ⟨lines, ran, -⟩ := performs.outcome (invoked sandbox method)
  rw [performs.steady (invoked_agrees sandbox method),
    ← block_of_selected tabled selected] at ran
  simp only [delivered, selected, Option.bind_eq_bind, Option.bind_some]
  rw [ran]
  cases machine.evaluate case.entry params sandbox with
  | error breakdown => rfl
  | ok outcome =>
    obtain ⟨result, saved⟩ := outcome
    cases result <;> rfl

end Delivery

/-- The block that arguments are given to the table as, if there are any. -/
def Sandbox.sent (args : Option (List Value)) : Option Bytes := do
  (Cbor.encode (.tuple (← args))).toOption

namespace Sandbox

/-- One operation on a sandbox, whether it succeeds or stops early, with the block that it is given
for the table. -/
inductive Step : Sandbox → Option Bytes → Sandbox → Prop
  | storePut (sandbox : Sandbox) (codec : Nat) (data : Bytes) (hash size : Int) :
      Step sandbox none (Sandbox.storePut codec data hash size sandbox).2
  | storePutKeyed (sandbox : Sandbox) (address : Value) (data : Bytes) :
      Step sandbox none (Sandbox.storePutKeyed address data sandbox).2
  | setRoot (sandbox : Sandbox) (root : Value) :
      Step sandbox none (Sandbox.setRoot root sandbox).2
  | putBlock (sandbox : Sandbox) (data : Bytes) :
      Step sandbox (some data) (Sandbox.putBlock data sandbox).2
  | putParams (sandbox : Sandbox) (args : Option (List Value)) :
      Step sandbox (sent args) (Sandbox.putParams args sandbox).2
  | loadState (sandbox : Sandbox) {machine : Machine} {program : Program} {symbol : String}
      (runs : machine.RunsOver (lower program symbol)) :
      Step sandbox none (machine.loadState sandbox).2
  | saveState (sandbox : Sandbox) {machine : Machine} {program : Program} {symbol : String}
      (runs : machine.RunsOver (lower program symbol)) (state : Value) :
      Step sandbox none (machine.saveState state sandbox).2
  | dispatch (sandbox : Sandbox) {machine : Machine} {program : Program} {symbol : String}
      {table : DispatchTable} (tabled : (lower program symbol).table = some table)
      (runs : machine.RunsOver (lower program symbol)) (method : Value) (params : Int) :
      Step sandbox (machine.delivered table method params sandbox)
        (machine.dispatch table method params sandbox).2

theorem storePutKeyed_apply (cid : Cid) (data : Bytes) (sandbox : Sandbox) :
    Sandbox.storePutKeyed (.cid cid) data sandbox =
      ((sandbox.store.putKeyed cid data).1.mapError .store,
        { sandbox with store := (sandbox.store.putKeyed cid data).2 }) := by
  unfold Sandbox.storePutKeyed
  simp only [Run.bind_apply, Run.get_apply, Run.modify_apply]
  cases (sandbox.store.putKeyed cid data).1 <;> rfl

/-- What one operation can do to a sandbox: a block is added to the store under its own address,
the root is set to a block of the store, and the block that was given is added to the table. -/
structure Grows (before : Sandbox) (given : Option Bytes) (after : Sandbox) : Prop where
  store : after.store = before.store ∨
    ∃ cid data, cid.Addresses data ∧ after.store = before.store.insert cid data
  root : after.root = before.root ∨
    ∃ cid, after.root = some (.cid cid) ∧ after.store.contains cid
  blocks : after.blocks = before.blocks.addAll given.toList

namespace Grows

variable {before after : Sandbox} {given : Option Bytes}

theorem of_kept (store : after.store = before.store) (root : after.root = before.root)
    (blocks : after.blocks = before.blocks) : Grows before none after :=
  ⟨.inl store, .inl root, blocks⟩

theorem of_saves {state : Value} (saves : Machine.Saves before after state)
    (blocks : after.blocks = before.blocks.addAll given.toList) : Grows before given after := by
  obtain ⟨data, cid, -, made, root, contained, kept | inserted⟩ := saves
  · exact ⟨.inl kept, .inr ⟨cid, root, contained⟩, blocks⟩
  · exact ⟨.inr ⟨cid, data, Cid.addresses_of_ofBlock made, inserted⟩,
      .inr ⟨cid, root, contained⟩, blocks⟩

theorem put {codec : Nat} {data : Bytes} {hash size : Int} {cid : Cid} {store : Store}
    (puts : before.store.put codec data hash size = .ok (cid, store)) :
    Grows before none { before with store := store } := by
  obtain ⟨made, inserted | kept⟩ := Store.put_eq_ok puts
  · exact ⟨.inr ⟨cid, data, Cid.addresses_of_ofBlock made, inserted⟩, .inl rfl, rfl⟩
  · exact of_kept kept rfl rfl

theorem storePut (codec : Nat) (data : Bytes) (hash size : Int) :
    Grows before none (Sandbox.storePut codec data hash size before).2 := by
  unfold Sandbox.storePut
  simp only [Run.bind_apply, Run.get_apply]
  cases puts : before.store.put codec data hash size with
  | error fault => exact of_kept rfl rfl rfl
  | ok found => exact put puts

theorem storePutKeyed (address : Value) (data : Bytes) :
    Grows before none (Sandbox.storePutKeyed address data before).2 := by
  cases address with
  | cid cid =>
    rw [storePutKeyed_apply, Store.putKeyed]
    cases puts : before.store.put cid.codec data cid.hash cid.digest.length with
    | error fault => exact of_kept rfl rfl rfl
    | ok found => exact put puts
  | _ => exact of_kept rfl rfl rfl

theorem setRoot (root : Value) : Grows before none (Sandbox.setRoot root before).2 := by
  cases root with
  | cid cid =>
    rw [Machine.setRoot_apply]
    split
    · exact ⟨.inl rfl, .inr ⟨cid, rfl, by assumption⟩, rfl⟩
    · exact of_kept rfl rfl rfl
  | _ =>
    simp only [Sandbox.setRoot]
    generalize Value.unhashable? _ = unhashable
    cases unhashable <;> exact of_kept rfl rfl rfl

theorem putParams (args : Option (List Value)) :
    Grows before (sent args) (Sandbox.putParams args before).2 := by
  cases args with
  | none => exact of_kept rfl rfl rfl
  | some args =>
    unfold Sandbox.putParams sent
    simp only [Option.bind_eq_bind, Option.bind_some]
    cases Cbor.encode (.tuple args) with
    | ok data => exact ⟨.inl rfl, .inl rfl, rfl⟩
    | error fault => exact of_kept rfl rfl rfl

theorem dispatch {machine : Machine} {program : Program} {symbol : String} {table : DispatchTable}
    (tabled : (lower program symbol).table = some table)
    (runs : machine.RunsOver (lower program symbol)) (method : Value) (params : Int) :
    Grows before (machine.delivered table method params before)
      (machine.dispatch table method params before).2 := by
  cases selected : table.selected? method with
  | none =>
    have nothing : machine.delivered table method params before = none := by
      simp [Machine.delivered, selected]
    rw [nothing, Machine.dispatch_unselected selected]
    exact of_kept rfl rfl rfl
  | some case =>
    rw [Machine.delivered_eq tabled runs selected]
    cases evaluated : machine.evaluate case.entry params before with
    | error breakdown =>
      obtain ⟨lines, ran, -⟩ := Machine.dispatch_of_breakdown tabled runs selected evaluated
      rw [ran]
      exact of_kept rfl rfl rfl
    | ok outcome =>
      obtain ⟨lines, ran⟩ := Machine.dispatch_of_outcome tabled runs selected evaluated
      obtain ⟨_, _, _, -, -, saves⟩ := Machine.evaluate_eq_ok evaluated
      rw [ran]
      split at saves
      · obtain ⟨held, saved, -, told, saves⟩ := saves
        rw [told]
        exact of_saves saves rfl
      · rw [saves]
        exact ⟨.inl rfl, .inl rfl, rfl⟩

end Grows

/-- Every operation only adds. -/
theorem Step.grows {before after : Sandbox} {given : Option Bytes} (step : Step before given after) :
    Grows before given after := by
  cases step with
  | storePut codec data hash size => exact Grows.storePut codec data hash size
  | storePutKeyed address data => exact Grows.storePutKeyed address data
  | setRoot root => exact Grows.setRoot root
  | putBlock data => exact ⟨.inl rfl, .inl rfl, rfl⟩
  | putParams args => exact Grows.putParams args
  | loadState runs =>
    obtain ⟨lines, ran, -⟩ := (Machine.loadState_reads runs).outcome before
    rw [ran]
    split <;> exact Grows.of_kept rfl rfl rfl
  | @saveState machine _ _ runs state =>
    obtain ⟨lines, ran, -⟩ := (Machine.saveState_performs runs state).outcome before
    rw [ran]
    cases saved : machine.savedState state before with
    | error breakdown => exact Grows.of_kept rfl rfl rfl
    | ok found => exact Grows.of_saves (Machine.savedState_eq_ok saved) rfl
  | dispatch tabled runs method params => exact Grows.dispatch tabled runs method params

/-- The store keeps what is put into it, and the root is the address of one of its blocks. -/
structure Rooted (sandbox : Sandbox) : Prop where
  keeps : sandbox.store.mode = .keep
  stored : ∀ root, sandbox.root = some root →
    ∃ cid data, root = .cid cid ∧ sandbox.store.get? cid = some data

theorem Grows.rooted {before after : Sandbox} {given : Option Bytes}
    (grows : Grows before given after) (rooted : before.Rooted) : after.Rooted := by
  constructor
  · rcases grows.store with kept | ⟨cid, data, -, inserted⟩
    · rw [kept, rooted.keeps]
    · rw [inserted, Store.mode_insert, rooted.keeps]
  · intro root same
    rcases grows.root with kept | ⟨cid, set, contained⟩
    · obtain ⟨address, block, rfl, stored⟩ := rooted.stored root (kept ▸ same)
      rcases grows.store with kept | ⟨cid, data, -, inserted⟩
      · exact ⟨address, block, rfl, by rw [kept, stored]⟩
      · -- A block more in the store does not hide the block of the root.
        refine ⟨address, if address = cid then data else block, rfl, ?_⟩
        rw [inserted, Store.get?_insert, stored]
        split <;> rfl
    · obtain ⟨data, stored⟩ := Option.isSome_iff_exists.mp contained
      cases set.symm.trans same
      exact ⟨cid, data, rfl, stored⟩

theorem rooted_fresh : Rooted {} :=
  ⟨rfl, fun root same => by cases same⟩

/-- Operations one after the other, with all blocks that they are given for the table. -/
inductive Runs (first : Sandbox) : List Bytes → Sandbox → Prop
  | still : Runs first [] first
  | step {given : List Bytes} {before after : Sandbox} {data : Option Bytes}
      (goes : Runs first given before) (step : Step before data after) :
      Runs first (given ++ data.toList) after

theorem Runs.rooted {first last : Sandbox} {given : List Bytes} (goes : Runs first given last)
    (begun : first.Rooted) : last.Rooted := by
  induction goes with
  | still => exact begun
  | step _ step ih => exact step.grows.rooted ih

/-- The sandboxes that operations lead to, whether they succeed or stop early. -/
def Reachable (sandbox : Sandbox) : Prop :=
  ∃ given, Runs {} given sandbox

theorem Reachable.fresh : Reachable {} :=
  ⟨[], .still⟩

theorem Reachable.step {before after : Sandbox} {data : Option Bytes} (reached : before.Reachable)
    (step : Step before data after) : after.Reachable := by
  obtain ⟨given, goes⟩ := reached
  exact ⟨_, goes.step step⟩

/-- In a reachable sandbox the root is the address of a block of the store. -/
theorem Reachable.rooted {sandbox : Sandbox} (reachable : sandbox.Reachable) :
    sandbox.Rooted := by
  obtain ⟨given, goes⟩ := reachable
  exact goes.rooted rooted_fresh

end Sandbox

end ActorGlue
