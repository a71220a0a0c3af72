import ActorGlue.Proofs.Cbor.RoundTrip

/-!
# What is read can be written

Every value that reading gives can be written again, and is then read as the same value, with
numbers that are not numbers in one form. Only two kinds of items are not kept: a break in the
place of an item, which has no encoding, and a simple value whose short form means something else.
-/

namespace ActorGlue

variable {value : Value} {n width used : Nat}

namespace Value

variable {entries : List (Value × Value)}

section Assigning

/-- What is assigned takes the place of an equal key, or comes last if there is none. -/
theorem keys_assign (key value : Value) (entries : List (Value × Value)) :
    (assign key value entries).map (·.1) = entries.map (·.1) ∨
      (∀ entry ∈ entries, key.same entry.1 = false) := by
  induction entries with
  | nil => exact .inr fun _ member => nomatch member
  | cons entry rest ih =>
    obtain ⟨old, before⟩ := entry
    rw [assign]
    cases same : key.same old with
    | true => exact .inl rfl
    | false =>
      rcases ih with kept | differs
      · left
        simpa using kept
      · right
        intro other member
        rcases List.mem_cons.mp member with rfl | later
        · exact same
        · exact differs other later

theorem Distinct.assign (distinct : Distinct entries) (key value : Value) :
    Distinct (assign key value entries) := by
  rcases keys_assign key value entries with kept | differs
  · rw [Distinct, kept]
    exact distinct
  · rw [assign_of_differs differs, Distinct, List.map_append, List.pairwise_append]
    refine ⟨distinct, List.pairwise_singleton _ _, ?_⟩
    intro old member other isKey
    obtain ⟨entry, among, rfl⟩ := List.mem_map.mp member
    rw [List.mem_singleton.mp isKey]
    exact differs entry among

theorem ReadEntries.assign {frozen : Bool} {key : Value} (read : ReadEntries frozen entries)
    (isKey : key.Read true) (isValue : value.Read frozen) :
    ReadEntries frozen (assign key value entries) := by
  induction entries with
  | nil => exact ⟨isKey, isValue, trivial⟩
  | cons entry rest ih =>
    obtain ⟨old, before⟩ := entry
    rw [Value.assign]
    split
    · exact ⟨read.1, isValue, read.2.2⟩
    · exact ⟨read.1, read.2.1, ih read.2.2⟩

theorem length_assign_le (key value : Value) (entries : List (Value × Value)) :
    (assign key value entries).length ≤ entries.length + 1 := by
  induction entries with
  | nil => simp [assign]
  | cons entry rest ih =>
    rw [assign]
    split <;> simp only [List.length_cons] <;> omega

/-- Entries that can be read are assigned to a map that can be. -/
theorem read_ofEntries {frozen : Bool} (read : ReadEntries frozen entries)
    (short : entries.length ≤ Cbor.Reader.maxArray) : (ofEntries entries).Read frozen := by
  have step : ∀ more done : List (Value × Value), ReadEntries frozen more → Distinct done →
      ReadEntries frozen done →
        let all := more.foldl (fun done entry => Value.assign entry.1 entry.2 done) done
        all.length ≤ done.length + more.length ∧ Distinct all ∧ ReadEntries frozen all := by
    intro more
    induction more with
    | nil => exact fun done _ distinct readDone => ⟨le_rfl, distinct, readDone⟩
    | cons entry rest ih =>
      intro done readMore distinct readDone
      obtain ⟨lengths, found⟩ := ih _ readMore.2.2 (distinct.assign entry.1 entry.2)
        (readDone.assign readMore.1 readMore.2.1)
      refine ⟨lengths.trans ?_, found⟩
      have longer := length_assign_le entry.1 entry.2 done
      rw [List.length_cons]
      omega
  obtain ⟨lengths, found⟩ := step entries [] read List.Pairwise.nil trivial
  exact ⟨(lengths.trans (by simp)).trans short, found⟩

end Assigning

end Value

namespace Bytes

theorem toNat_lt (bytes : Bytes) : toNat bytes < 256 ^ bytes.length := by
  induction bytes using List.reverseRecOn with
  | nil => decide
  | append_singleton bytes byte ih =>
    have digit := byte.toNat_lt
    rw [toNat_append_singleton, List.length_append, List.length_singleton, pow_succ]
    omega

end Bytes

namespace Cbor

namespace Reader

variable (info : Nat)

/-- The values that a reader gives from bytes that can be addressed, and the number of bytes it
takes for them. -/
def Takes {α : Type} (reader : Reader α) (post : α → Nat → Prop) : Prop :=
  ∀ ⦃bytes value rest⦄, bytes.length ≤ maxString → reader bytes = .ok (value, rest) →
    ∃ used, bytes.length = used + rest.length ∧ post value used

namespace Takes

variable {α β : Type} {reader : Reader α} {post : α → Nat → Prop} {other : β → Nat → Prop}

theorem mono {other : α → Nat → Prop} (takes : Takes reader post)
    (weaker : ∀ value used, used ≤ maxString → post value used → other value used) :
    Takes reader other := by
  intro bytes value rest short read
  obtain ⟨used, lengths, holds⟩ := takes short read
  exact ⟨used, lengths, weaker value used (by omega) holds⟩

theorem bind {next : α → Reader β} (first : Takes reader post)
    (second : ∀ value used, post value used →
      Takes (next value) fun found more => other found (used + more)) :
    Takes (reader >>= next) other := by
  intro bytes found rest short read
  change (reader bytes).bind (fun value => next value.1 value.2) = .ok (found, rest) at read
  cases h : reader bytes with
  | error fault => rw [h] at read; cases read
  | ok result =>
    obtain ⟨value, between⟩ := result
    rw [h] at read
    obtain ⟨used, lengths, holds⟩ := first short h
    have shortRest : between.length ≤ maxString := by omega
    have after : next value between = .ok (found, rest) := read
    obtain ⟨more, lengths', holds'⟩ := second value used holds shortRest after
    exact ⟨used + more, by omega, holds'⟩

theorem pure {value : α} (holds : post value 0) : Takes (pure value) post := by
  intro bytes found rest _ read
  cases read
  exact ⟨0, by omega, holds⟩

theorem throw {fault : DecodeFault} : Takes (throw fault : Reader α) post := by
  intro bytes found rest _ read
  cases read

theorem map {f : α → β} (takes : Takes reader post)
    (weaker : ∀ value used, post value used → other (f value) used) :
    Takes (f <$> reader) other := by
  rw [map_eq_pure_bind]
  exact takes.bind fun value used holds => .pure (weaker value used holds)

theorem ite {condition : Prop} [Decidable condition] {other : Reader α}
    (yes : condition → Takes reader post) (no : ¬ condition → Takes other post) :
    Takes (if condition then reader else other) post := by
  split
  · exact yes ‹_›
  · exact no ‹_›

end Takes

section Parts

theorem takes_next : Takes next fun _ used => used = 1 := by
  intro bytes value rest _ read
  cases bytes with
  | nil => cases read
  | cons byte bytes =>
    cases read
    exact ⟨1, by simp [Nat.add_comm], rfl⟩

theorem takes_take (count : Nat) :
    Takes (take count) fun found used => found.length = count ∧ used = count := by
  intro bytes found rest _ read
  rw [take] at read
  split at read
  · cases read
    exact ⟨count, by simp; omega, by simp; omega, rfl⟩
  · cases read

theorem takes_takeNat (count : Nat) : Takes (takeNat count) fun n _ => n < 256 ^ count := by
  refine (takes_take count).bind fun found used lengths => .pure ?_
  rw [← lengths.1]
  exact Bytes.toNat_lt found

theorem takes_argument : Takes (argument info) fun n _ => n < Nat.pow 2 64 := by
  have wide : ∀ width, 256 ^ width ≤ Nat.pow 2 64 →
      Takes (takeNat width) fun n _ => n < Nat.pow 2 64 :=
    fun width bound => (takes_takeNat width).mono fun n _ _ small => small.trans_le bound
  rw [argument]
  refine .ite (fun small => .pure (small.trans (by decide))) fun _ => ?_
  refine .ite (fun _ => wide 1 (by decide)) fun _ => ?_
  refine .ite (fun _ => wide 2 (by decide)) fun _ => ?_
  refine .ite (fun _ => wide 4 (by decide)) fun _ => ?_
  exact .ite (fun _ => wide 8 (by decide)) fun _ => .throw

theorem takes_length? : Takes (length? info) fun _ _ => True :=
  .ite (fun _ => .pure trivial) fun _ => (takes_argument info).map fun _ _ _ => trivial

theorem takes_bound : Takes bound fun _ used => used = 0 := by
  intro bytes count rest _ read
  cases read
  exact ⟨0, by omega, rfl⟩

theorem takes_takePieces (count : Nat) :
    Takes (takePieces count) fun found used => found.length = used := by
  induction count using Nat.strong_induction_on with
  | _ count ih =>
    rw [takePieces]
    refine .ite (fun _ => (takes_take count).mono fun _ _ _ lengths => by omega) fun long => ?_
    refine (takes_take pieceSize).bind fun piece used isPiece => ?_
    refine (ih (count - pieceSize) (by unfold pieceSize at *; omega)).bind
      fun more used' isMore => .pure ?_
    rw [List.length_append]
    omega

theorem takes_content (kind : String) (length : Nat) :
    Takes (content kind length) fun found used => found.length = used :=
  .ite (fun _ => .throw) fun _ => takes_takePieces length

theorem length_toList (bytes : ByteArray) : bytes.toList.length = bytes.size := by
  rw [ByteArray.toList, toList_loop]
  simp

theorem takes_textOf (bytes : Bytes) : Takes (textOf bytes) fun found used =>
    used = 0 ∧ found.toUTF8.toList.length = bytes.length := by
  rw [textOf]
  cases decoded : String.fromUTF8? bytes.toByteArray with
  | none => exact .throw
  | some text =>
    have whole : text.toUTF8 = bytes.toByteArray := by
      rw [String.fromUTF8?] at decoded
      split at decoded <;> cases decoded
      rfl
    apply Takes.pure
    rw [length_toList, whole]
    simp

/-- The chunks of a string together take at least as many bytes as they have. -/
theorem takes_chunks {α : Type} {major : Nat} {bad : DecodeFault} {read : Nat → Reader α}
    {size : α → Nat} (chunk : ∀ length, Takes (read length) fun found used => size found ≤ used)
    (steps : Nat) :
    Takes (chunks major bad read steps) fun found used => (found.map size).sum ≤ used := by
  induction steps with
  | zero => exact .throw
  | succ steps ih =>
    rw [chunks]
    refine takes_next.bind fun first _ _ => ?_
    refine .ite (fun _ => .pure (by simp)) fun _ => ?_
    refine .ite (fun _ => .throw) fun _ => ?_
    refine (takes_argument _).bind fun length _ _ => ?_
    refine (chunk length).bind fun found used sized => ?_
    refine ih.bind fun others used' sizes => .pure ?_
    rw [List.map_cons, List.sum_cons]
    omega

theorem takes_byteString : Takes (byteString info) fun found used => found.length ≤ used := by
  rw [byteString]
  refine (takes_length? info).bind fun length _ _ => ?_
  cases length with
  | some length =>
    exact (takes_content "bytestring" length).mono fun _ _ _ lengths => by omega
  | none =>
    refine takes_bound.bind fun steps _ _ => ?_
    have sized : ∀ length, Takes (content "bytestring" length) fun found used =>
        found.length ≤ used :=
      fun length => (takes_content _ length).mono fun _ _ _ lengths => lengths.le
    refine (takes_chunks sized steps).bind fun found used sizes => .pure ?_
    rw [List.length_flatten]
    omega

theorem length_join (parts : List String) : (String.join parts).toUTF8.toList.length =
    (parts.map fun part => part.toUTF8.toList.length).sum := by
  have sizes : ∀ text : String, text.toUTF8.toList.length = text.utf8ByteSize :=
    fun text => length_toList _
  simp only [sizes]
  induction parts with
  | nil => rfl
  | cons part rest ih =>
    rw [List.map_cons, List.sum_cons, ← ih]
    simp

theorem takes_text : Takes (text info) fun found used => found.toUTF8.toList.length ≤ used := by
  have sized : ∀ length, Takes (content "string" length >>= textOf) fun found used =>
      found.toUTF8.toList.length ≤ used := by
    intro length
    refine (takes_content _ length).bind fun bytes used lengths => ?_
    exact (takes_textOf bytes).mono fun found more _ sizes => by omega
  rw [text]
  refine (takes_length? info).bind fun length _ _ => ?_
  cases length with
  | some length => exact (sized length).mono fun _ _ _ lengths => by omega
  | none =>
    refine takes_bound.bind fun steps _ _ => ?_
    refine (takes_chunks sized steps).bind fun found used sizes => .pure ?_
    rw [length_join]
    omega

end Parts

section Sequences

variable {frozen : Bool} {read readKey : Reader Value}

/-- A reader of one item gives what can be read, and takes a byte at least. -/
def TakesItem (frozen : Bool) (read : Reader Value) : Prop :=
  Takes read fun value used => value.Read frozen ∧ 1 ≤ used

/-- A reader of several items does so, and takes a byte at least for each. -/
def TakesItems (frozen : Bool) (read : Reader (List Value)) : Prop :=
  Takes read fun found used => Value.ReadAll frozen found ∧ found.length ≤ used

theorem TakesItems.cons {more : Reader (List Value)} (others : TakesItems frozen more)
    (isRead : value.Read frozen ∧ 1 ≤ used) :
    Takes (do return value :: (← more)) fun found after =>
      Value.ReadAll frozen found ∧ found.length ≤ used + after := by
  refine others.bind fun found _ areRead => .pure ⟨⟨isRead.1, areRead.1⟩, ?_⟩
  rw [List.length_cons]
  omega

theorem takes_items (one : TakesItem frozen read) (count : Nat) :
    TakesItems frozen (items read count) := by
  induction count with
  | zero => exact Takes.pure ⟨trivial, le_rfl⟩
  | succ count ih => exact one.bind fun value used isRead => ih.cons isRead

theorem takes_itemsToBreak (one : TakesItem frozen read) (steps : Nat) :
    TakesItems frozen (itemsToBreak read steps) := by
  induction steps with
  | zero => exact Takes.throw
  | succ steps ih =>
    refine one.bind fun value used isRead => ?_
    split
    · exact .pure ⟨trivial, Nat.zero_le _⟩
    · exact ih.cons isRead

/-- The same for entries. -/
def TakesEntries (frozen : Bool) (read : Reader (List (Value × Value))) : Prop :=
  Takes read fun found used => Value.ReadEntries frozen found ∧ found.length ≤ used

theorem TakesEntries.cons {more : Reader (List (Value × Value))} (others : TakesEntries frozen more)
    (one : TakesItem frozen read) {name : Value} (isKey : name.Read true ∧ 1 ≤ used) :
    Takes (do
        let value ← read
        return (name, value) :: (← more)) fun found after =>
      Value.ReadEntries frozen found ∧ found.length ≤ used + after := by
  refine one.bind fun value _ isRead => ?_
  refine others.bind fun found _ areRead => .pure ⟨⟨isKey.1, isRead.1, areRead.1⟩, ?_⟩
  rw [List.length_cons]
  omega

theorem takes_entries (key : TakesItem true readKey) (one : TakesItem frozen read) (count : Nat) :
    TakesEntries frozen (entries read readKey count) := by
  induction count with
  | zero => exact Takes.pure ⟨trivial, le_rfl⟩
  | succ count ih => exact key.bind fun name used isKey => ih.cons one isKey

theorem takes_entriesToBreak (key : TakesItem true readKey) (one : TakesItem frozen read)
    (steps : Nat) : TakesEntries frozen (entriesToBreak read readKey steps) := by
  induction steps with
  | zero => exact Takes.throw
  | succ steps ih =>
    refine key.bind fun name used isKey => ?_
    split
    · exact .pure ⟨trivial, Nat.zero_le _⟩
    · exact ih.cons one isKey

theorem takes_array (one : TakesItem frozen read) (info : Nat) :
    TakesItems frozen (array read info) := by
  rw [array]
  refine (takes_length? info).bind fun length used _ => ?_
  cases length with
  | some count =>
    refine .ite (fun _ => .throw) fun _ => ?_
    exact (takes_items one count).mono fun _ _ _ found => ⟨found.1, by omega⟩
  | none =>
    refine takes_bound.bind fun steps _ _ => ?_
    exact (takes_itemsToBreak one steps).mono fun _ _ _ found => ⟨found.1, by omega⟩

theorem maxString_le_maxArray : maxString ≤ maxArray := by
  decide

theorem takes_mapping (key : TakesItem true readKey) (one : TakesItem frozen read) (info : Nat) :
    Takes (mapping read readKey info) fun found _ => found.Read frozen := by
  have assigned : ∀ {found : List (Value × Value)} {used : Nat}, used ≤ maxString →
      Value.ReadEntries frozen found ∧ found.length ≤ used → (Value.ofEntries found).Read frozen :=
    fun short areRead => Value.read_ofEntries areRead.1
      ((areRead.2.trans short).trans maxString_le_maxArray)
  rw [mapping]
  refine (takes_length? info).bind fun length used _ => ?_
  cases length with
  | some count =>
    refine Takes.bind ((takes_entries key one count).mono fun _ _ short areRead =>
      assigned short areRead) fun found _ isRead => .pure isRead
  | none =>
    refine takes_bound.bind fun steps _ _ => ?_
    refine Takes.bind ((takes_entriesToBreak key one steps).mono fun _ _ short areRead =>
      assigned short areRead) fun found _ isRead => .pure isRead

theorem read_int (small : n < 256 ^ width) (short : width ≤ maxString) (frozen : Bool) :
    (Value.int n).Read frozen ∧ (Value.int (-1 - n)).Read frozen := by
  have bounded := (length_minimalBytes_le small).trans short
  have counted : -1 - (n : Int) = Int.negSucc n := by omega
  rw [counted]
  exact ⟨bounded, bounded⟩

theorem takes_tagged (one : TakesItem frozen read) (info : Nat) :
    Takes (tagged read frozen info) fun found _ => found.Read frozen := by
  rw [tagged]
  refine (takes_argument info).bind fun number used bounded => ?_
  refine one.bind fun content used' isRead => ?_
  refine .ite (fun special => ?_) fun other => ?_
  · cases content with
    | bytes found =>
      have ints := read_int (Bytes.toNat_lt found) isRead.1 frozen
      apply Takes.pure
      split
      · exact ints.1
      · exact ints.2
    | _ => exact .throw
  · exact .pure ⟨bounded, fun two => other (.inl two), fun three => other (.inr three), isRead.1⟩

end Sequences

theorem takes_special {info : Nat} (bounded : info < 32) (frozen : Bool) :
    Takes (special info) fun found _ => found.Read frozen := by
  rw [special]
  refine .ite (fun _ => .pure trivial) fun _ => ?_
  refine .ite (fun _ => .pure trivial) fun _ => ?_
  refine .ite (fun _ => .pure trivial) fun _ => ?_
  refine .ite (fun _ => .pure trivial) fun _ => ?_
  refine .ite (fun _ => (takes_takeNat 1).bind fun _ _ small => .pure small) fun _ => ?_
  refine .ite (fun _ => (takes_takeNat 2).bind fun _ _ _ => .pure trivial) fun _ => ?_
  refine .ite (fun _ => (takes_takeNat 4).bind fun _ _ _ => .pure trivial) fun _ => ?_
  refine .ite (fun _ => (takes_takeNat 8).bind fun _ _ _ => .pure trivial) fun _ => ?_
  refine .ite (fun _ => .throw) fun _ => ?_
  refine .ite (fun _ => .pure trivial) fun _ => .pure ?_
  exact bounded.trans (by decide)

/-- Every item gives what can be read. -/
theorem takes_item (depth : Nat) (frozen : Bool) : TakesItem frozen (item depth frozen) := by
  induction depth generalizing frozen with
  | zero => exact Takes.throw
  | succ depth ih =>
    rw [TakesItem, item]
    refine takes_next.bind fun first _ one => ?_
    have whole : ∀ {reader : Reader Value}, Takes reader (fun value _ => value.Read frozen) →
        Takes reader fun value more => value.Read frozen ∧ 1 ≤ _ + more :=
      fun takes => takes.mono fun _ _ _ isRead => ⟨isRead, Nat.le_add_right_of_le one.ge⟩
    have argument := takes_argument (first.toNat % 32)
    have small : 8 ≤ maxString := by decide
    apply whole
    split
    · exact argument.bind fun n _ bounded => .pure (read_int bounded small frozen).1
    · exact argument.bind fun n _ bounded => .pure (read_int bounded small frozen).2
    · refine Takes.bind ((takes_byteString _).mono fun found used short lengths => ?_)
        fun _ _ isRead => .pure isRead
      exact lengths.trans short
    · refine Takes.bind ((takes_text _).mono fun found used short lengths => ?_)
        fun _ _ isRead => .pure isRead
      exact lengths.trans short
    · refine Takes.bind ((takes_array (ih frozen) _).mono fun found used short areRead => ?_)
        fun _ _ isRead => .pure isRead
      have lengths := (areRead.2.trans short).trans maxString_le_maxArray
      cases frozen with
      | true => exact ⟨rfl, lengths, areRead.1⟩
      | false => exact ⟨rfl, lengths, areRead.1⟩
    · exact takes_mapping (ih true) (ih frozen) _
    · exact takes_tagged (ih frozen) _
    · exact takes_special (Nat.mod_lt _ (by decide)) frozen

end Reader

/-- What is decoded from bytes that can be addressed can be read. -/
theorem read_of_decode {data : Bytes} (short : data.length ≤ Reader.maxString)
    (decoded : decode data = .ok value) : value.Read false := by
  have opened : decode data = (Reader.item (data.length + 1) false data).map (·.1) := rfl
  rw [opened] at decoded
  cases found : Reader.item (data.length + 1) false data with
  | error fault => rw [found] at decoded; cases decoded
  | ok result =>
    rw [found] at decoded
    cases decoded
    obtain ⟨_, _, isRead, _⟩ := Reader.takes_item _ false short found
    exact isRead

end Cbor

end ActorGlue
