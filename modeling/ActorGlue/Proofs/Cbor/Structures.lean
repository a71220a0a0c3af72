import ActorGlue.Proofs.Cbor.Rereading

/-!
# Structures as ordered lists

Data of any nesting is written, and read with every tuple, record and content identifier as the
list of its parts in order. The only thing that cannot be written is an object from outside, so
writing fails exactly if there is one somewhere in the data.
-/

namespace ActorGlue

variable {item key : Value} {frozen : Bool} {data : Bytes}

namespace Value

section Definitions

/-- The value is an object that has no encoding. -/
def Opaque : Value → Prop
  | .foreign | .breakMark => True
  | _ => False

/-- Data: plain values, content identifiers, records and objects from outside, in lists, tuples and
maps of any nesting. The keys of a map are integers, texts or byte strings, each there once. -/
inductive Built : Value → Prop where
  | null : Built .null
  | bool (value : Bool) : Built (.bool value)
  | int (value : Int) : Built (.int value)
  | float (value : Double) : Built (.float value)
  | text (value : String) : Built (.text value)
  | bytes (value : Bytes) : Built (.bytes value)
  | cid (address : Cid) : Built (.cid address)
  | outside {value : Value} (isOpaque : value.Opaque) : Built value
  | list {items : List Value} (inside : ∀ item ∈ items, Built item) : Built (.list items)
  | tuple {items : List Value} (inside : ∀ item ∈ items, Built item) : Built (.tuple items)
  | map {entries : List (Value × Value)} (areKeys : ∀ entry ∈ entries, entry.1.IsKey)
      (distinct : (entries.map (·.1)).Nodup) (inside : ∀ entry ∈ entries, Built entry.2) :
      Built (.map entries)
  | record {name : String} {fields : List (String × Value)}
      (inside : ∀ field ∈ fields, Built field.2) : Built (.record name fields)

/-- The values right inside of a value, each key before its value. -/
def parts : Value → List Value
  | .list items | .tuple items => items
  | .map entries => entries.flatMap fun entry => [entry.1, entry.2]
  | .record _ fields => fields.map (·.2)
  | _ => []

/-- A value is a part of another one, at any depth, or that value itself. -/
inductive PartOf (part : Value) : Value → Prop where
  | whole : PartOf part part
  | inner {value item : Value} (member : item ∈ value.parts) (inside : PartOf part item) :
      PartOf part value

/-- The value itself is not longer than what can be addressed. A longer one is held in no memory, and
the reader refuses the lengths of such strings and arrays. -/
def Short : Value → Prop
  | .int n => (Cbor.minimalBytes (Cbor.magnitude n)).length ≤ Cbor.Reader.maxString
  | .text content => content.toUTF8.toList.length ≤ Cbor.Reader.maxString
  | .bytes content => content.length ≤ Cbor.Reader.maxString
  | .list items | .tuple items => items.length ≤ Cbor.Reader.maxArray
  | .map entries => entries.length ≤ Cbor.Reader.maxArray
  | .record _ fields => fields.length ≤ Cbor.Reader.maxArray
  | .cid address => address.digest.length ≤ Cbor.Reader.maxString ∧
      ∀ number ∈ [address.codec, address.hash, address.version],
        (Cbor.minimalBytes number).length ≤ Cbor.Reader.maxString
  | _ => True

/-- No part of the value is longer than what can be addressed. -/
def Addressable (value : Value) : Prop :=
  ∀ part, PartOf part value → part.Short

mutual

/-- The value with every tuple, record and content identifier as the list of its parts, and with
numbers that are not numbers in one form. -/
def flattened : Value → Value
  | .float x => .float x.unified
  | .list items => .list (flattenedAll items)
  | .tuple items => .list (flattenedAll items)
  | .map entries => .map (flattenedEntries entries)
  | .cid address =>
    .list [.int address.codec, .int address.hash, .bytes address.digest, .int address.version]
  | .record _ fields => .list (flattenedFields fields)
  | value => value

/-- The same for several values. -/
def flattenedAll : List Value → List Value
  | [] => []
  | item :: rest => item.flattened :: flattenedAll rest

/-- The same for the values of entries. -/
def flattenedEntries : List (Value × Value) → List (Value × Value)
  | [] => []
  | (key, value) :: rest => (key, value.flattened) :: flattenedEntries rest

/-- The same for the values of fields, without their names. -/
def flattenedFields : List (String × Value) → List Value
  | [] => []
  | (_, value) :: rest => value.flattened :: flattenedFields rest

end

end Definitions

theorem flattenedAll_eq (items : List Value) : flattenedAll items = items.map flattened := by
  induction items with
  | nil => rfl
  | cons item rest ih => rw [flattenedAll, ih, List.map_cons]

theorem flattenedEntries_eq (entries : List (Value × Value)) :
    flattenedEntries entries = entries.map fun entry => (entry.1, entry.2.flattened) := by
  induction entries with
  | nil => rfl
  | cons entry rest ih => rw [flattenedEntries, ih, List.map_cons]

theorem flattenedFields_eq (fields : List (String × Value)) :
    flattenedFields fields = (fields.map (·.2)).map flattened := by
  induction fields with
  | nil => rfl
  | cons field rest ih => rw [flattenedFields, ih, List.map_cons, List.map_cons]

theorem mem_parts_map {entries : List (Value × Value)} :
    item ∈ (Value.map entries).parts ↔ ∃ entry ∈ entries, item = entry.1 ∨ item = entry.2 := by
  simp [parts]

theorem mem_parts_record {name : String} {fields : List (String × Value)} :
    item ∈ (Value.record name fields).parts ↔ ∃ field ∈ fields, field.2 = item :=
  List.mem_map

variable {value : Value}

theorem addressable_of_parts (short : value.Short)
    (inside : ∀ item ∈ value.parts, item.Addressable) : value.Addressable := by
  intro part isPart
  cases isPart with
  | whole => exact short
  | inner member isPart => exact inside _ member part isPart

theorem Addressable.inner (addressable : value.Addressable) (member : item ∈ value.parts) :
    item.Addressable :=
  fun part inside => addressable part (.inner member inside)

/-- There is no object from outside in the value. -/
def Writable (value : Value) : Prop :=
  ∀ part, part.Opaque → ¬PartOf part value

theorem Writable.inner (writable : value.Writable) (member : item ∈ value.parts) : item.Writable :=
  fun part isOpaque inside => writable part isOpaque (.inner member inside)

end Value

namespace Cbor

open Reader

section Carrying

variable {value : Value} {items : List Value} {pairs : List (Value × Value)} {f : Value → Value}

theorem carryAll_map (each : ∀ item ∈ items, Carries frozen item (f item)) :
    CarryAll frozen items (items.map f) := by
  induction items with
  | nil => exact ⟨[], rfl, fun _ _ _ => rfl⟩
  | cons item rest ih =>
    have each := List.forall_mem_cons.mp each
    exact (ih each.2).cons each.1

theorem carryEntries_map
    (each : ∀ pair ∈ pairs, Carries true pair.1 pair.1 ∧ Carries frozen pair.2 (f pair.2)) :
    CarryEntries frozen pairs (pairs.map fun pair => (pair.1, f pair.2)) := by
  induction pairs with
  | nil => exact ⟨[], rfl, fun _ _ _ => rfl⟩
  | cons pair rest ih =>
    have each := List.forall_mem_cons.mp each
    exact (ih each.2).cons each.1.1 each.1.2

/-- A content identifier is written as the list of its parts. -/
theorem encode_cid (address : Cid) : encode (.cid address) = encode (.list
    [.int address.codec, .int address.hash, .bytes address.digest, .int address.version]) := by
  simp [encode, encodeAll, cid, bind, Except.bind, pure, Except.pure]

theorem carries_key (isKey : key.IsKey) (short : key.Short) : Carries true key key := by
  cases key with
  | int n => exact carries_int short true
  | text value => exact carries_text short true
  | bytes value => exact carries_bytes short true
  | _ => exact isKey.elim

theorem carries_cid {address : Cid} (short : (Value.cid address).Short) :
    Carries false (.cid address) (Value.cid address).flattened := by
  obtain ⟨digest, numbers⟩ := short
  have number (n : Nat) (member : n ∈ [address.codec, address.hash, address.version]) :
      Carries false (.int n) (.int n) :=
    @carries_int n (numbers n member) false
  have none : CarryAll false [] [] := ⟨[], rfl, fun _ _ _ => rfl⟩
  have few : 4 ≤ maxArray := by decide
  refine carries_parts (encode_cid address) few ?_
  exact (((none.cons (number _ (by simp))).cons (carries_bytes digest false)).cons
    (number _ (by simp))).cons (number _ (by simp))

/-- Data without objects from outside is written, and read with its structures as lists. -/
theorem carries_built (built : value.Built) (short : value.Addressable)
    (writable : value.Writable) : Carries false value value.flattened := by
  induction built with
  | null => exact carries_null false
  | bool value => exact carries_bool value false
  | int n => exact carries_int (short _ .whole) false
  | float x => exact carries_float x
  | text value => exact carries_text (short _ .whole) false
  | bytes value => exact carries_bytes (short _ .whole) false
  | cid address => exact carries_cid (short _ .whole)
  | outside isOpaque => exact absurd .whole (writable _ isOpaque)
  | list inside ih | tuple inside ih =>
    rw [Value.flattened, Value.flattenedAll_eq]
    refine carries_parts rfl (short _ .whole) (carryAll_map fun item member => ?_)
    exact ih item member (short.inner member) (writable.inner member)
  | @map pairs areKeys distinct inside ih =>
    have keys : (pairs.map fun pair => (pair.1, pair.2.flattened)).map (·.1) =
        pairs.map (·.1) := by simp
    rw [Value.flattened, Value.flattenedEntries_eq]
    refine carries_map (short _ .whole) (Value.distinct_of_nodup (List.forall_mem_map.mpr areKeys)
      (keys ▸ distinct)) (carryEntries_map fun pair member => ⟨?_, ?_⟩)
    · have isPart := Value.mem_parts_map.mpr ⟨pair, member, .inl rfl⟩
      exact carries_key (areKeys pair member) (short _ (.inner isPart .whole))
    · have isPart := Value.mem_parts_map.mpr ⟨pair, member, .inr rfl⟩
      exact ih pair member (short.inner isPart) (writable.inner isPart)
  | @record name fields inside ih =>
    have length : (fields.map (·.2)).length ≤ maxArray := by
      rw [List.length_map]
      exact short _ .whole
    rw [Value.flattened, Value.flattenedFields_eq]
    refine carries_parts (encode_record name fields) length (carryAll_map fun item member => ?_)
    obtain ⟨field, isField, rfl⟩ := List.mem_map.mp member
    exact ih field isField (short.inner member) (writable.inner member)

end Carrying

section Failing

/-! ## What cannot be written -/

variable {value : Value} {items : List Value} {pairs : List (Value × Value)}

theorem encodeEntries_eq (pairs : List (Value × Value)) :
    encodeEntries pairs = encodeAll (pairs.flatMap fun pair => [pair.1, pair.2]) := by
  induction pairs with
  | nil => rfl
  | cons pair rest ih =>
    simp only [encodeEntries, encodeAll, List.flatMap_cons, List.cons_append, List.nil_append,
      List.append_assoc, ih, bind_assoc, pure_bind]

/-- The value is written, and holds no object from outside, or else it fails for such an object. -/
def Resolves (value : Value) : Prop :=
  value.Writable ∧ (∃ data, encode value = .ok data) ∨
    ∃ part, part.Opaque ∧ Value.PartOf part value ∧
      encode value = .error (.unserializable part.typeName)

/-- Values that are written one after the other fail for an object in one of them. -/
theorem encodeAll_resolves (each : ∀ item ∈ items, Resolves item) :
    (∀ item ∈ items, item.Writable) ∧ (∃ data, encodeAll items = .ok data) ∨
      ∃ item ∈ items, ∃ part, part.Opaque ∧ Value.PartOf part item ∧
        encodeAll items = .error (.unserializable part.typeName) := by
  induction items with
  | nil => exact .inl ⟨nofun, [], rfl⟩
  | cons item rest ih =>
    have each := List.forall_mem_cons.mp each
    obtain ⟨writable, data, writes⟩ | ⟨part, isOpaque, inside, fails⟩ := each.1
    · obtain ⟨others, more, writesMore⟩ | ⟨other, member, part, isOpaque, inside, fails⟩ :=
        ih each.2
      · refine .inl ⟨List.forall_mem_cons.mpr ⟨writable, others⟩, data ++ more, ?_⟩
        simp only [encodeAll, writes, writesMore]
        rfl
      · refine .inr ⟨other, List.mem_cons_of_mem _ member, part, isOpaque, inside, ?_⟩
        simp only [encodeAll, writes, fails]
        rfl
    · refine .inr ⟨item, List.mem_cons_self, part, isOpaque, inside, ?_⟩
      simp only [encodeAll, fails]
      rfl

/-- A value that is written as some bytes and its parts resolves as they do. -/
theorem resolves_of_parts {front : Bytes} (clear : ¬value.Opaque)
    (written : encode value = (front ++ ·) <$> encodeAll value.parts)
    (each : ∀ item ∈ value.parts, Resolves item) : Resolves value := by
  obtain ⟨writable, data, writes⟩ | ⟨item, member, part, isOpaque, inside, fails⟩ :=
    encodeAll_resolves each
  · refine .inl ⟨?_, front ++ data, by rw [written, writes]; rfl⟩
    intro part isOpaque inside
    cases inside with
    | whole => exact clear isOpaque
    | inner member inside => exact writable _ member part isOpaque inside
  · exact .inr ⟨part, isOpaque, .inner member inside, by rw [written, fails]; rfl⟩

theorem resolves_of_leaf (clear : ¬value.Opaque) (leaf : value.parts = [])
    (written : encode value = .ok data) : Resolves value := by
  refine @resolves_of_parts value data clear ?_ (by simp [leaf])
  rw [written, leaf]
  simp [encodeAll]

theorem resolves_key (isKey : key.IsKey) : Resolves key := by
  cases key with
  | int | text | bytes => exact resolves_of_leaf id rfl rfl
  | _ => exact isKey.elim

theorem resolves_built (built : value.Built) : Resolves value := by
  induction built with
  | null | bool | int | float | text | bytes | cid => exact resolves_of_leaf id rfl rfl
  | @outside value isOpaque =>
    refine .inr ⟨value, isOpaque, .whole, ?_⟩
    cases value <;> first | rfl | cases isOpaque
  | list inside ih | tuple inside ih => exact resolves_of_parts id rfl ih
  | @map pairs areKeys distinct inside ih =>
    have written : encode (.map pairs) =
        (head 5 pairs.length ++ ·) <$> encodeAll (Value.map pairs).parts := by
      rw [encode, encodeEntries_eq]
      rfl
    refine resolves_of_parts id written fun item member => ?_
    obtain ⟨pair, isPair, rfl | rfl⟩ := Value.mem_parts_map.mp member
    · exact resolves_key (areKeys pair isPair)
    · exact ih pair isPair
  | @record name fields inside ih =>
    have written : encode (.record name fields) = (head 4 (fields.map (·.2)).length ++ ·) <$>
        encodeAll (Value.record name fields).parts := encode_record name fields
    refine resolves_of_parts id written fun item member => ?_
    obtain ⟨field, isField, rfl⟩ := Value.mem_parts_record.mp member
    exact ih field isField

theorem Resolves.writable (resolves : Resolves value) (writes : encode value = .ok data) :
    value.Writable := by
  obtain ⟨writable, -⟩ | ⟨part, -, -, fails⟩ := resolves
  · exact writable
  · exact nomatch writes.symm.trans fails

end Failing

/-- Data of any nesting is read back with its tuples, records and content identifiers as lists of
their parts. It cannot be written exactly if it holds an object from outside, and it then fails for
the type of such an object and for nothing else. -/
theorem structures_travel_as_lists {value : Value} (built : value.Built) :
    (value.Writable → value.Addressable →
      ∃ data, encode value = .ok data ∧ decode data = .ok value.flattened) ∧
    ((∃ fault, encode value = .error fault) ↔ ∃ part, part.Opaque ∧ Value.PartOf part value) ∧
    ∀ fault, encode value = .error fault → ∃ part, part.Opaque ∧ Value.PartOf part value ∧
      fault = .unserializable part.typeName := by
  refine ⟨fun writable short => (carries_built built short writable).decode, ?_⟩
  obtain ⟨writable, data, writes⟩ | ⟨part, isOpaque, inside, fails⟩ := resolves_built built
  · refine ⟨⟨?_, ?_⟩, ?_⟩
    · rintro ⟨fault, fails⟩
      exact nomatch writes.symm.trans fails
    · rintro ⟨part, isOpaque, inside⟩
      exact absurd inside (writable part isOpaque)
    · intro fault fails
      exact nomatch writes.symm.trans fails
  · refine ⟨⟨fun _ => ⟨part, isOpaque, inside⟩, fun _ => ⟨_, fails⟩⟩, fun fault same => ?_⟩
    exact ⟨part, isOpaque, inside, Except.error.inj (same.symm.trans fails)⟩

/-- A record with a tuple and a map in it, and a list with an object from outside. -/
theorem structures_travel_as_lists_pair :
    (∃ data, encode (.record "Pair" [("left", .tuple [.int (-1)]),
          ("right", .map [(.int 300, .cid ⟨113, 45600, [7], 1⟩)])]) = .ok data ∧
        decode data = .ok (.list [.list [.int (-1)],
          .map [(.int 300, .list [.int 113, .int 45600, .bytes [7], .int 1])]])) ∧
      ∃ fault, encode (.list [.tuple [.foreign]]) = .error fault := by
  have short {n : Nat} (small : n < 256 ^ 8) : (minimalBytes n).length ≤ maxString :=
    (length_minimalBytes_le small).trans (by decide)
  have few : 2 ≤ maxArray := by decide
  refine ⟨?_, ?_⟩
  · have built : Value.Built (.record "Pair" [("left", .tuple [.int (-1)]),
        ("right", .map [(.int 300, .cid ⟨113, 45600, [7], 1⟩)])]) := by
      refine .record (List.forall_mem_cons.mpr ⟨?_, List.forall_mem_singleton.mpr ?_⟩)
      · exact .tuple (List.forall_mem_singleton.mpr (.int _))
      · exact .map (List.forall_mem_singleton.mpr trivial) (List.nodup_singleton _)
          (List.forall_mem_singleton.mpr (.cid _))
    refine (structures_travel_as_lists built).1 ((resolves_built built).writable rfl) ?_
    refine Value.addressable_of_parts few (List.forall_mem_cons.mpr
      ⟨?_, List.forall_mem_singleton.mpr ?_⟩)
    · refine Value.addressable_of_parts ((by decide : 1 ≤ 2).trans few)
        (List.forall_mem_singleton.mpr (Value.addressable_of_parts (short (n := 0) (by decide)) nofun))
    · refine Value.addressable_of_parts ((by decide : 1 ≤ 2).trans few)
        (List.forall_mem_cons.mpr ⟨?_, List.forall_mem_singleton.mpr ?_⟩)
      · exact Value.addressable_of_parts (short (n := 300) (by decide)) nofun
      · refine Value.addressable_of_parts ⟨(by decide : 1 ≤ maxString), ?_⟩ nofun
        simp only [List.forall_mem_cons]
        exact ⟨short (by decide), short (by decide), short (by decide), nofun⟩
  · refine (structures_travel_as_lists ?_).2.1.mpr ⟨.foreign, trivial, ?_⟩
    · exact .list (List.forall_mem_singleton.mpr (.tuple (List.forall_mem_singleton.mpr
        (.outside trivial))))
    · exact .inner List.mem_cons_self (.inner List.mem_cons_self .whole)

end Cbor

end ActorGlue
