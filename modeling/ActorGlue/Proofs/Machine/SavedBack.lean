import ActorGlue.Proofs.Cbor.Rereading
import ActorGlue.Proofs.Machine.Failures

/-!
# Saving what was loaded

A state that is loaded and saved unchanged is stored as the same array, up to the form of numbers
that are not numbers, provided that the array has a value for every field. One that is shorter is
filled up with nulls: the loaded state does not tell a null from a field without a value.
-/

namespace ActorGlue

namespace RecordClass

variable {values : List Value}

theorem forall_mem_filled {count : Nat} {Holds : Value → Prop} (null : Holds .null)
    (all : ∀ value ∈ values, Holds value) : ∀ value ∈ filled count values, Holds value := by
  intro value member
  rcases List.mem_append.mp member with given | filling
  · exact all value given
  · rwa [(List.mem_replicate.mp filling).2]

theorem readAll_filled {count : Nat} (read : Value.ReadAll false values) :
    Value.ReadAll false (filled count values) :=
  Value.readAll_iff.mpr (forall_mem_filled trivial (Value.readAll_iff.mp read))

theorem lastingAll_filled {count : Nat} (lasting : Value.LastingAll values) :
    Value.LastingAll (filled count values) :=
  Value.lastingAll_iff.mpr (forall_mem_filled trivial (Value.lastingAll_iff.mp lasting))

theorem unifiedAll_filled (count : Nat) (values : List Value) :
    Value.unifiedAll (filled count values) = filled count (Value.unifiedAll values) := by
  simp [Value.unifiedAll_eq, filled, Value.unified]

/-- The class of a state structure has an attribute for every field. -/
theorem length_fields_of_ofState {state : StateStruct} {cls : RecordClass}
    (made : ofState state = .ok cls) : cls.fields.length = state.fields.length := by
  simp only [ofState, ofFields, bind, Except.bind] at made
  split at made
  · cases made
  · split at made
    · cases made
    · split at made
      · cases made
      · obtain rfl := Except.ok.inj made
        simp

end RecordClass

/-- The block of the state is an array of values. -/
def Sandbox.Holds (sandbox : Sandbox) (items : List Value) : Prop :=
  ∃ data, sandbox.stateBlock? = some data ∧ Cbor.decode data = .ok (.list items)

theorem Sandbox.Holds.congr {sandbox other : Sandbox} {items : List Value}
    (holds : sandbox.Holds items) (root : other.root = sandbox.root)
    (store : other.store = sandbox.store) : other.Holds items := by
  obtain ⟨data, found, decoded⟩ := holds
  refine ⟨data, ?_, decoded⟩
  rw [Sandbox.stateBlock?, root, store]
  exact found

namespace Machine

open Glue

section Saving

variable {machine : Machine} {sandbox : Sandbox} {cls : RecordClass} {items : List Value}
  {data : Bytes}

/-- The record of an array that was read. -/
theorem storedState_of_read (interfaced : machine.interface.isSome)
    (classed : machine.stateClass = some cls) (found : sandbox.stateBlock? = some data)
    (decoded : Cbor.decode data = .ok (.list items)) (fits : items.length ≤ cls.fields.length)
    (read : Value.ReadAll false items) :
    machine.storedState sandbox =
      .ok (.record cls.name (RecordClass.pair cls.fields items)) := by
  have made := decodeRecord_of_ok cls decoded
  simp only [RecordClass.misfit?, if_neg (Nat.not_lt.mpr fits)] at made
  obtain ⟨record, made⟩ := made
  obtain ⟨_, _, same, listed, rfl⟩ := decodeRecord_eq_ok made
  obtain rfl := Option.some.inj same
  rw [decode_bytes, decoded] at listed
  obtain rfl := Value.list.inj (Except.ok.inj listed)
  have settled : Records.renew (.record cls.name (RecordClass.pair cls.fields items)) =
      .record cls.name (RecordClass.pair cls.fields items) := by
    apply Records.renew_read
    rw [RecordClass.values_pair_filled fits]
    exact RecordClass.readAll_filled read
  rw [storedState_of_block interfaced found, classed, made, orAbort, Except.map, settled]

/-- What is loaded is the record of an array with at most as many values as there are fields. -/
theorem storedState_eq_ok {state : Value} (interfaced : machine.interface.isSome)
    (classed : machine.stateClass = some cls) (found : sandbox.stateBlock? = some data)
    (short : data.length ≤ Cbor.Reader.maxString)
    (loads : machine.storedState sandbox = .ok state) :
    ∃ items, Cbor.decode data = .ok (.list items) ∧ items.length ≤ cls.fields.length ∧
      Value.ReadAll false items ∧
      state = .record cls.name (RecordClass.pair cls.fields items) := by
  cases decoded : Cbor.decode data with
  | error fault =>
    rw [storedState_of_error interfaced classed found decoded] at loads
    cases loads
  | ok value =>
    cases misfit : cls.misfit? value with
    | some fault =>
      rw [storedState_of_misfit interfaced classed found decoded misfit] at loads
      cases loads
    | none =>
      obtain ⟨items, rfl, fits⟩ : ∃ items, value = .list items ∧
          items.length ≤ cls.fields.length := by
        cases value with
        | list items =>
          rw [RecordClass.misfit?] at misfit
          split at misfit
          · cases misfit
          · exact ⟨items, rfl, Nat.le_of_not_lt (by assumption)⟩
        | _ => cases misfit
      have read : Value.ReadAll false items := (Cbor.read_of_decode short decoded).2.2
      refine ⟨items, rfl, fits, read, ?_⟩
      rw [storedState_of_read interfaced classed found decoded fits read] at loads
      exact (Except.ok.inj loads).symm

/-- A record of values that were read and last is saved as the array of its values. -/
theorem savedState_of_read (interfaced : machine.interface.isSome)
    (keeps : sandbox.store.mode = .keep) (short : cls.fields.length ≤ Cbor.Reader.maxArray)
    (fits : items.length ≤ cls.fields.length) (read : Value.ReadAll false items)
    (lasting : Value.LastingAll items) :
    ∃ saved, machine.savedState (.record cls.name (RecordClass.pair cls.fields items)) sandbox =
        .ok saved ∧
      (sandbox.commit (some saved)).Holds
        (RecordClass.filled cls.fields.length (Value.unifiedAll items)) := by
  have length := RecordClass.length_filled fits
  obtain ⟨data, writes, reads⟩ :=
    (Cbor.keeps_read (.list (RecordClass.filled cls.fields.length items)) false
      ⟨rfl, length.le.trans short, RecordClass.readAll_filled read⟩
      (RecordClass.lastingAll_filled lasting)).decode
  have encodes : Cbor.encode (.record cls.name (RecordClass.pair cls.fields items)) = .ok data := by
    rw [Cbor.encode_record, RecordClass.values_pair_filled fits]
    exact writes
  obtain ⟨cid, saves⟩ := savedState_of_encoded interfaced keeps encodes
  refine ⟨_, saves, data, ?_, ?_⟩
  · exact (Store.get?_insert _ _ _ _).trans (if_pos rfl)
  · rw [reads, Value.unified, RecordClass.unifiedAll_filled]

/-- An invocation that changes the state saves what its method leaves. -/
theorem evaluate_saves {entry : EntryPoint} {params : Int} {outcome : Outcome}
    (evaluated : machine.evaluate entry params sandbox = .ok outcome)
    (writes : entry.mutability = .write) :
    ∃ held value records saved,
      machine.Calls entry params sandbox (some held) (.ok (value, records)) ∧
      outcome.saved = some saved ∧ machine.savedState (records.settle held) sandbox = .ok saved := by
  have saves : entry.mutability.savesState = true := by rw [writes]; rfl
  have loads : entry.mutability.loadsState = true := by rw [writes]; rfl
  unfold evaluate at evaluated
  simp only [Preview.bind_eq_ok, mapError_eq_ok] at evaluated
  obtain ⟨arguments, sent, ⟨receiver, records⟩, received, ⟨value, after⟩, answered, result, -,
    concludes⟩ := evaluated
  obtain ⟨held, rfl⟩ := Option.isSome_iff_exists.mp ((receiver_eq_ok received).trans loads)
  simp only [concluded, saves, if_true, Preview.bind_eq_ok] at concludes
  obtain ⟨saved, saves, told⟩ := concludes
  cases told
  exact ⟨held, value, after, saved, ⟨arguments, records, sent, received, answered⟩, rfl, saves⟩

end Saving

section Interface

variable {state : StateStruct} {cls : RecordClass} {methods : List (String × StandIn)}
  {machine : Machine} {sandbox : Sandbox} {items : List Value}

theorem ofInterface_eq_ok
    (made : ofInterface (some (lowerState state)) methods = .ok machine) :
    ∃ cls, machine = ⟨some (lowerState state), some cls, methods⟩ ∧
      cls.fields.length = state.fields.length := by
  simp only [ofInterface] at made
  split at made
  · cases made
    exact ⟨_, rfl, RecordClass.length_fields_of_ofState (by assumption)⟩
  · cases made

/-- The machine of a state structure runs over every program of it. -/
theorem runsOver_lowerState (cls : Option RecordClass) (actor : Option Actor) (symbol : String) :
    RunsOver ⟨some (lowerState state), cls, methods⟩
      (lower { states := [state], actor := actor } symbol) := by
  rintro interface same
  obtain rfl := Option.some.inj same
  exact List.mem_singleton_self _

/-- Loading and saving a state that reads as an array. -/
theorem saveState_of_stored {data : Bytes} (keeps : sandbox.store.mode = .keep)
    (short : cls.fields.length ≤ Cbor.Reader.maxArray)
    (found : sandbox.stateBlock? = some data) (decoded : Cbor.decode data = .ok (.list items))
    (fits : items.length ≤ cls.fields.length) (read : Value.ReadAll false items)
    (lasting : Value.LastingAll items) :
    let machine : Machine := ⟨some (lowerState state), some cls, methods⟩
    let loaded := Value.record cls.name (RecordClass.pair cls.fields items)
    (machine.loadState sandbox).1 = .ok loaded ∧
      ∃ address after, machine.saveState loaded (machine.loadState sandbox).2 = (.ok address, after) ∧
        after.Holds (RecordClass.filled cls.fields.length (Value.unifiedAll items)) := by
  intro machine loaded
  have runs := @runsOver_lowerState state methods (some cls) none invokeSymbol
  have stored : machine.storedState sandbox = .ok loaded :=
    storedState_of_read rfl rfl found decoded fits read
  obtain ⟨lines, ran, -⟩ := (loadState_reads runs).outcome sandbox
  rw [stored] at ran
  rw [ran]
  refine ⟨rfl, ?_⟩
  obtain ⟨saved, saves, holds⟩ :=
    @savedState_of_read machine (sandbox.noted lines) cls items rfl keeps short fits read lasting
  obtain ⟨more, ranSave, -⟩ := (saveState_performs runs loaded).outcome (sandbox.noted lines)
  rw [saves] at ranSave
  exact ⟨_, _, ranSave, holds.congr rfl rfl⟩

/-- An invocation whose method leaves the state alone saves it as it was loaded. -/
theorem dispatch_of_left (keeps : sandbox.store.mode = .keep)
    (short : cls.fields.length ≤ Cbor.Reader.maxArray) (fits : items.length ≤ cls.fields.length)
    (read : Value.ReadAll false items) (lasting : Value.LastingAll items) (actor : Actor)
    (symbol : String) {method : Value} {case : Case} (params : Int)
    (selected : (lowerActor actor symbol).selected? method = some case)
    (writes : case.entry.mutability = .write) :
    let machine : Machine := ⟨some (lowerState state), some cls, methods⟩
    (∀ held value records,
      machine.Calls case.entry params sandbox (some held) (.ok (value, records)) →
        records.settle held = .record cls.name (RecordClass.pair cls.fields items)) →
    match machine.dispatch (lowerActor actor symbol) method params sandbox with
    | (.ok _, after) =>
      after.Holds (RecordClass.filled cls.fields.length (Value.unifiedAll items))
    | (.error _, after) => KeepsState sandbox after := by
  intro machine leaves
  have runs := @runsOver_lowerState state methods (some cls) (some actor) symbol
  have tabled : (lower { states := [state], actor := some actor } symbol).table =
      some (lowerActor actor symbol) := rfl
  cases evaluated : machine.evaluate case.entry params sandbox with
  | error breakdown =>
    obtain ⟨lines, ran, -⟩ := dispatch_of_breakdown tabled runs selected evaluated
    rw [ran]
    exact ⟨rfl, rfl⟩
  | ok outcome =>
    obtain ⟨lines, ran⟩ := dispatch_of_outcome tabled runs selected evaluated
    obtain ⟨held, value, records, saved, calls, told, saves⟩ := evaluate_saves evaluated writes
    rw [leaves held value records calls] at saves
    obtain ⟨_, saves', holds⟩ :=
      @savedState_of_read machine sandbox cls items rfl keeps short fits read lasting
    obtain rfl := Except.ok.inj (saves.symm.trans saves')
    rw [ran, told]
    exact holds.congr rfl rfl

end Interface

/-- A state that is loaded and saved back is stored as the array that it was loaded from, filled up
with nulls if that is too short. An invocation that changes the state stores the same array where
its method leaves the state alone, and one that fails stores nothing. -/
theorem loaded_state_saved_back {state : StateStruct} {methods : List (String × StandIn)}
    {machine : Machine} (made : ofInterface (some (lowerState state)) methods = .ok machine)
    (few : state.fields.length ≤ Cbor.Reader.maxArray) {sandbox : Sandbox}
    (keeps : sandbox.store.mode = .keep) {block : Bytes}
    (found : sandbox.stateBlock? = some block) (short : block.length ≤ Cbor.Reader.maxString)
    {loaded : Value} (loads : (machine.loadState sandbox).1 = .ok loaded) :
    ∃ items, Cbor.decode block = .ok (.list items) ∧ items.length ≤ state.fields.length ∧
      (Value.LastingAll items →
        let kept := RecordClass.filled state.fields.length (Value.unifiedAll items)
        (kept = Value.unifiedAll items ↔ items.length = state.fields.length) ∧
        (∃ address after,
          machine.saveState loaded (machine.loadState sandbox).2 = (.ok address, after) ∧
            after.Holds kept) ∧
        ∀ (actor : Actor) (symbol : String) (method : Value) (case : Case) (params : Int),
          (lowerActor actor symbol).selected? method = some case →
          case.entry.mutability = .write →
          (∀ held value records,
            machine.Calls case.entry params sandbox (some held) (.ok (value, records)) →
              records.settle held = loaded) →
          match machine.dispatch (lowerActor actor symbol) method params sandbox with
          | (.ok _, after) => after.Holds kept
          | (.error _, after) => KeepsState sandbox after) := by
  obtain ⟨cls, rfl, lengths⟩ := ofInterface_eq_ok made
  have runs := @runsOver_lowerState state methods (some cls) none invokeSymbol
  have stored : storedState ⟨some (lowerState state), some cls, methods⟩ sandbox = .ok loaded := by
    obtain ⟨lines, ran, -⟩ := (loadState_reads runs).outcome sandbox
    rw [ran] at loads
    cases told : storedState ⟨some (lowerState state), some cls, methods⟩ sandbox with
    | error breakdown => rw [told] at loads; cases loads
    | ok record => rw [told] at loads; exact congrArg Except.ok (Except.ok.inj loads)
  obtain ⟨items, decoded, fits, read, rfl⟩ := storedState_eq_ok rfl rfl found short stored
  rw [← lengths] at few ⊢
  refine ⟨items, decoded, fits, fun lasting => ⟨?_, ?_, ?_⟩⟩
  · have count := Value.length_unifiedAll items
    rw [RecordClass.filled_eq_iff (count.le.trans fits), count]
  · exact (saveState_of_stored keeps few found decoded fits read lasting).2
  · intro actor symbol method case params selected writes leaves
    exact dispatch_of_left keeps few fits read lasting actor symbol params selected writes leaves

section Pair

/-- A state of two fields. -/
def pairState : StateStruct :=
  ⟨"Pair", "Pair", [⟨"left", "u64"⟩, ⟨"right", "u64"⟩], .dagCbor⟩

theorem ofInterface_pair : ofInterface (some (lowerState pairState)) [] =
    .ok ⟨some (lowerState pairState), some ⟨"Pair", ["left", "right"]⟩, []⟩ := by
  have classed : RecordClass.ofState pairState = .ok ⟨"Pair", ["left", "right"]⟩ := by
    decide +kernel
  have opened : (lowerState pairState).state = pairState := rfl
  simp only [ofInterface, opened, classed]

/-- The sandbox whose state is a block. -/
theorem exists_stateBlock (block : Bytes) : ∃ (cid : Cid) (sandbox : Sandbox),
    Cid.ofBlock dagCborCodec block = .ok cid ∧
    sandbox = { store := ({} : Store).insert cid block, root := some (.cid cid) } ∧
    sandbox.store.mode = .keep ∧ sandbox.stateBlock? = some block := by
  obtain ⟨cid, put⟩ := @Store.put_of_keep {} rfl block
  refine ⟨cid, _, (Store.put_eq_ok put).1, rfl, Store.mode_insert _ _ _, ?_⟩
  exact (Store.get?_insert _ _ _ _).trans (if_pos rfl)

/-- Two values with a long head and a number that is not a number. -/
theorem loaded_state_saved_back_pair :
    let block : Bytes := [0x82, 0x18, 0x01, 0xfb, 0x7f, 0xf8, 0, 0, 0, 0, 0, 1]
    ∃ machine cid start loaded address after,
      ofInterface (some (lowerState pairState)) [] = .ok machine ∧
      Cid.ofBlock dagCborCodec block = .ok cid ∧
      start = { store := ({} : Store).insert cid block, root := some (.cid cid) } ∧
      (machine.loadState start).1 = .ok loaded ∧
      machine.saveState loaded (machine.loadState start).2 = (.ok address, after) ∧
      after.Holds [.int 1, .float .nan] := by
  intro block
  have decoded : Cbor.decode block =
      .ok (.list [.int 1, .float ⟨0x7ff8000000000001⟩]) := rfl
  have lasting : Value.LastingAll [.int 1, .float ⟨0x7ff8000000000001⟩] :=
    ⟨trivial, trivial, trivial⟩
  obtain ⟨cid, start, addressed, made, keeps, found⟩ := exists_stateBlock block
  have read := (Cbor.read_of_decode (by decide) decoded).2.2
  have loads := (@saveState_of_stored pairState ⟨"Pair", ["left", "right"]⟩ [] start _ block keeps
    (by decide) found decoded (by decide) read lasting).1
  obtain ⟨items, listed, -, rest⟩ :=
    loaded_state_saved_back ofInterface_pair (by decide) keeps found (by decide) loads
  obtain rfl := Value.list.inj (Except.ok.inj (decoded.symm.trans listed))
  obtain ⟨-, ⟨address, after, saves, holds⟩, -⟩ := rest lasting
  refine ⟨_, cid, start, _, address, after, ofInterface_pair, addressed, made, loads, saves, ?_⟩
  have isNan : Double.parts ⟨0x7ff8000000000001⟩ = .nan := by decide +kernel
  have kept : RecordClass.filled 2 (Value.unifiedAll [.int 1, .float ⟨0x7ff8000000000001⟩]) =
      [.int 1, .float .nan] := by
    simp [RecordClass.filled, Value.unifiedAll, Value.unified, Double.unified, isNan]
  exact kept ▸ holds

/-- A state with one value for two fields is saved with a null in the place of the other. -/
theorem short_state_filled_up :
    ∃ machine cid start loaded address after,
      ofInterface (some (lowerState pairState)) [] = .ok machine ∧
      Cid.ofBlock dagCborCodec [0x81, 0x01] = .ok cid ∧
      start = { store := ({} : Store).insert cid [0x81, 0x01], root := some (.cid cid) } ∧
      start.Holds [.int 1] ∧
      (machine.loadState start).1 = .ok loaded ∧
      machine.saveState loaded (machine.loadState start).2 = (.ok address, after) ∧
      after.Holds [.int 1, .null] := by
  have decoded : Cbor.decode [0x81, 0x01] = .ok (.list [.int 1]) := rfl
  obtain ⟨cid, start, addressed, made, keeps, found⟩ := exists_stateBlock [0x81, 0x01]
  have read := (Cbor.read_of_decode (by decide) decoded).2.2
  obtain ⟨loads, address, after, saves, holds⟩ := @saveState_of_stored pairState
    ⟨"Pair", ["left", "right"]⟩ [] start [.int 1] [0x81, 0x01] keeps (by decide) found decoded
    (by decide) read ⟨trivial, trivial⟩
  exact ⟨_, cid, start, _, address, after, ofInterface_pair, addressed, made,
    ⟨_, found, decoded⟩, loads, saves, holds⟩

end Pair

end Machine

end ActorGlue
