import Mathlib
import ActorGlue.Cbor.Decode
import ActorGlue.Cbor.Encode

/-!
# What is written can be read

Reading gives back every value that was written and that reading can give, whatever bytes follow.
Numbers that are not numbers come back as one of them, and everything else comes back as it was. Plain
values are among those.
-/

namespace ActorGlue

variable {value : Value} {bytes : Bytes} {major : Nat} {width n count bits : Nat} {rest : Bytes}
  {key found : Value} {first : UInt8}

namespace Bytes

theorem toNat_append_singleton (bytes : Bytes) (byte : UInt8) :
    toNat (bytes ++ [byte]) = 256 * toNat bytes + byte.toNat := by
  simp [toNat]

@[simp] theorem length_ofNat (width n : Nat) : (ofNat width n).length = width := by
  induction width generalizing n with
  | zero => rfl
  | succ width ih => simp [ofNat, ih]

theorem toNat_ofNat (h : n < 256 ^ width) : toNat (ofNat width n) = n := by
  induction width generalizing n with
  | zero =>
    have : n = 0 := by simpa using h
    subst this
    rfl
  | succ width ih =>
    have quotient : n / 256 < 256 ^ width := by
      rw [Nat.div_lt_iff_lt_mul (by decide), ← pow_succ]
      exact h
    have digit : (UInt8.ofNat (n % 256)).toNat = n % 256 := by
      simp
    rw [ofNat, toNat_append_singleton, ih quotient, digit]
    omega

end Bytes

namespace Cbor

theorem toNat_minimalBytes (n : Nat) : Bytes.toNat (minimalBytes n) = n := by
  induction n using Nat.strong_induction_on with
  | _ n ih =>
    rw [minimalBytes]
    split
    · subst n
      rfl
    · have digit : (UInt8.ofNat (n % 256)).toNat = n % 256 := by
        simp
      rw [Bytes.toNat_append_singleton, ih (n / 256) (by omega), digit]
      omega

theorem length_minimalBytes_le {n width : Nat} (small : n < 256 ^ width) :
    (minimalBytes n).length ≤ width := by
  induction width generalizing n with
  | zero =>
    obtain rfl : n = 0 := by simpa using small
    simp [minimalBytes]
  | succ width ih =>
    rw [minimalBytes]
    split
    · simp
    · have quotient : n / 256 < 256 ^ width := by
        rw [Nat.div_lt_iff_lt_mul (by decide), ← pow_succ]
        exact small
      have shorter := ih quotient
      simp only [List.length_append, List.length_singleton]
      omega

namespace Reader

variable {α β : Type}

theorem bind_of_ok {first : Reader α} {next : α → Reader β} {value : α}
    (h : first bytes = .ok (value, rest)) : (first >>= next) bytes = next value rest := by
  change (first bytes).bind (fun found => next found.1 found.2) = _
  rw [h]
  rfl

theorem map_of_ok {first : Reader α} {f : α → β} {value : α} (h : first bytes = .ok (value, rest)) :
    (f <$> first) bytes = .ok (f value, rest) := by
  rw [map_eq_pure_bind, bind_of_ok h]
  rfl

theorem take_append (h : bytes.length = count) (rest : Bytes) :
    take count (bytes ++ rest) = .ok (bytes, rest) := by
  subst h
  simp [take]

theorem takeNat_ofNat (h : n < 256 ^ width) (rest : Bytes) :
    takeNat width (Bytes.ofNat width n ++ rest) = .ok (n, rest) := by
  rw [takeNat, bind_of_ok (take_append (Bytes.length_ofNat width n) rest), Bytes.toNat_ofNat h]
  rfl

theorem takePieces_append (h : bytes.length = count) (rest : Bytes) :
    takePieces count (bytes ++ rest) = .ok (bytes, rest) := by
  induction count using Nat.strong_induction_on generalizing bytes with
  | _ count ih =>
    rw [takePieces]
    split
    · exact take_append h rest
    · have long : pieceSize < count := by omega
      have piece : (bytes.take pieceSize).length = pieceSize := by
        rw [List.length_take]
        omega
      have more : (bytes.drop pieceSize).length = count - pieceSize := by
        rw [List.length_drop, h]
      have first : take pieceSize (bytes ++ rest) =
          .ok (bytes.take pieceSize, bytes.drop pieceSize ++ rest) := by
        rw [← take_append piece (bytes.drop pieceSize ++ rest), ← List.append_assoc,
          List.take_append_drop]
      rw [bind_of_ok first, bind_of_ok (ih _ (by unfold pieceSize at *; omega) more),
        List.take_append_drop]
      rfl

theorem initialByte_toNat {info : Nat} (hm : major < 8) (hi : info < 32) :
    (initialByte major info).toNat = 32 * major + info := by
  rw [initialByte, UInt8.toNat_ofNat']
  omega

/-- A head is read as its major type and its argument. -/
theorem head_spec (hm : major < 8) (hn : n < Nat.pow 2 64) :
    ∃ first more, head major n = first :: more ∧ first.toNat / 32 = major ∧
      first.toNat % 32 ≠ 31 ∧
      ∀ rest, argument (first.toNat % 32) (more ++ rest) = .ok (n, rest) := by
  have parts : ∀ info, info < 28 → (initialByte major info).toNat / 32 = major ∧
      (initialByte major info).toNat % 32 = info := by
    intro info small
    rw [initialByte_toNat hm (by omega)]
    omega
  have wide : ∀ info width, (info = 24 ∧ width = 1 ∨ info = 25 ∧ width = 2 ∨
      info = 26 ∧ width = 4 ∨ info = 27 ∧ width = 8) → n < 256 ^ width →
      ∃ first more, initialByte major info :: Bytes.ofNat width n = first :: more ∧
        first.toNat / 32 = major ∧ first.toNat % 32 ≠ 31 ∧
        ∀ rest, argument (first.toNat % 32) (more ++ rest) = .ok (n, rest) := by
    intro info width kinds fits
    obtain ⟨isMajor, isInfo⟩ := parts info (by omega)
    refine ⟨_, _, rfl, isMajor, by omega, fun rest => ?_⟩
    rw [isInfo]
    rcases kinds with ⟨rfl, rfl⟩ | ⟨rfl, rfl⟩ | ⟨rfl, rfl⟩ | ⟨rfl, rfl⟩ <;>
      exact takeNat_ofNat fits rest
  have powers : Nat.pow 2 8 = 256 ^ 1 ∧ Nat.pow 2 16 = 256 ^ 2 ∧ Nat.pow 2 32 = 256 ^ 4 ∧
      Nat.pow 2 64 = 256 ^ 8 := by decide
  obtain ⟨p8, p16, p32, p64⟩ := powers
  unfold head
  split_ifs with h0 h1 h2 h3
  · obtain ⟨isMajor, isInfo⟩ := parts n (by omega)
    refine ⟨_, _, rfl, isMajor, by omega, fun rest => ?_⟩
    rw [isInfo, argument, if_pos h0]
    rfl
  · exact wide 24 1 (by omega) (p8 ▸ h1)
  · exact wide 25 2 (by omega) (p16 ▸ h2)
  · exact wide 26 4 (by omega) (p32 ▸ h3)
  · exact wide 27 8 (by omega) (p64 ▸ hn)

/-- What an item is read as after a head with an argument. -/
def body (depth : Nat) (frozen : Bool) (n : Nat) : Nat → Reader Value
  | 0 => pure (.int n)
  | 1 => pure (.int (-1 - n))
  | 2 => .bytes <$> content "bytestring" n
  | 3 => .text <$> (content "string" n >>= textOf)
  | 4 =>
    if maxArray < n then throw (.excessive "array" n)
    else (fun found => if frozen then .tuple found else .list found) <$>
      items (item depth frozen) n
  | 5 => .ofEntries <$> entries (item depth frozen) (item depth true) n
  | 6 => item depth frozen >>= tagValue frozen n
  | _ => throw (.ended 1 0)

theorem item_head (hm : major ≤ 6) (hn : n < Nat.pow 2 64) (depth : Nat) (frozen : Bool)
    (rest : Bytes) :
    item (depth + 1) frozen (head major n ++ rest) = body depth frozen n major rest := by
  obtain ⟨first, more, written, isMajor, definite, reads⟩ :=
    head_spec (show major < 8 by omega) hn
  have lengths : length? (first.toNat % 32) (more ++ rest) = .ok (some n, rest) := by
    rw [length?, if_neg definite]
    exact map_of_ok (reads rest)
  have opened : next (first :: (more ++ rest)) = .ok (first, more ++ rest) := rfl
  rw [written, List.cons_append, item, bind_of_ok opened]
  simp only [isMajor]
  interval_cases major
  · exact bind_of_ok (reads rest)
  · exact bind_of_ok (reads rest)
  · simp only [byteString, bind_assoc, bind_of_ok lengths, body, map_eq_pure_bind]
  · simp only [text, bind_assoc, bind_of_ok lengths, body, map_eq_pure_bind]
  · simp only [array, bind_assoc, bind_of_ok lengths, body, map_eq_pure_bind]
    by_cases long : maxArray < n
    · simp only [if_pos long]
      rfl
    · simp only [if_neg long]
  · simp only [mapping, bind_of_ok lengths, body, map_eq_pure_bind]
  · exact bind_of_ok (reads rest)

end Reader

/-- The number that is written for an integer: negative ones count down from minus one. -/
def magnitude : Int → Nat
  | .ofNat n => n
  | .negSucc n => n

end Cbor

section NotANumber

theorem Double.parts_nan : Double.nan.parts = .nan := by
  decide +kernel

/-- The number, with those that are not numbers in one form. -/
def Double.unified (x : Double) : Double :=
  if x.parts = .nan then .nan else x

theorem Double.parts_unified (x : Double) : x.unified.parts = x.parts := by
  rw [unified]
  split_ifs with isNan
  · rw [parts_nan, isNan]
  · rfl

theorem Double.toInt?_unified (x : Double) : x.unified.toInt? = x.toInt? := by
  rw [toInt?, toInt?, parts_unified]

theorem Double.same_unified (x y : Double) : x.unified.same y.unified = x.same y := by
  rw [same, same, toInt?_unified, toInt?_unified, parts_unified]
  by_cases isNan : x.parts = .nan
  · simp [isNan]
  · by_cases isNan' : y.parts = .nan
    · have differs : x ≠ y := fun equal => isNan (equal ▸ isNan')
      have differs' : x ≠ .nan := fun equal => isNan (equal ▸ parts_nan)
      simp [unified, isNan, isNan', differs, differs']
    · simp [unified, isNan, isNan']

end NotANumber

namespace Value

variable {entries : List (Value × Value)}

/-- The value can be the key of a map of plain values. -/
def IsKey : Value → Prop
  | .int _ | .text _ | .bytes _ => True
  | _ => False

mutual

/-- Plain data: null, truth values, numbers, texts, byte strings, lists, and maps whose keys are
integers, texts or byte strings. Nothing is longer than what can be addressed. -/
def Plain : Value → Prop
  | .null | .bool _ | .float _ => True
  | .int n => (Cbor.minimalBytes (Cbor.magnitude n)).length ≤ Cbor.Reader.maxString
  | .text content => content.toUTF8.toList.length ≤ Cbor.Reader.maxString
  | .bytes content => content.length ≤ Cbor.Reader.maxString
  | .list items => items.length ≤ Cbor.Reader.maxArray ∧ PlainAll items
  | .map entries => entries.length ≤ Cbor.Reader.maxArray ∧ (entries.map (·.1)).Nodup ∧
      PlainEntries entries
  | _ => False

def PlainAll : List Value → Prop
  | [] => True
  | item :: rest => item.Plain ∧ PlainAll rest

/-- All keys can be keys, and all values are plain. -/
def PlainEntries : List (Value × Value) → Prop
  | [] => True
  | (key, value) :: rest => key.IsKey ∧ key.Plain ∧ value.Plain ∧ PlainEntries rest

end

mutual

/-- The value with numbers that are not numbers in one form, at every depth. -/
def unified : Value → Value
  | .float x => .float x.unified
  | .list items => .list (unifiedAll items)
  | .tuple items => .tuple (unifiedAll items)
  | .map entries => .map (unifiedEntries entries)
  | .tag number content => .tag number content.unified
  | value => value

/-- The same for several values. -/
def unifiedAll : List Value → List Value
  | [] => []
  | item :: rest => item.unified :: unifiedAll rest

/-- The same for the keys and values of entries. -/
def unifiedEntries : List (Value × Value) → List (Value × Value)
  | [] => []
  | (key, value) :: rest => (key.unified, value.unified) :: unifiedEntries rest

end

theorem unifiedAll_eq (items : List Value) : unifiedAll items = items.map unified := by
  induction items with
  | nil => rfl
  | cons item rest ih => rw [unifiedAll, ih, List.map_cons]

theorem length_unifiedAll (items : List Value) : (unifiedAll items).length = items.length := by
  rw [unifiedAll_eq, List.length_map]

theorem unifiedEntries_eq (entries : List (Value × Value)) :
    unifiedEntries entries = entries.map fun entry => (entry.1.unified, entry.2.unified) := by
  induction entries with
  | nil => rfl
  | cons entry rest ih => rw [unifiedEntries, ih, List.map_cons]

@[simp] theorem toInt?_unified (value : Value) : value.unified.toInt? = value.toInt? := by
  cases value <;> simp [unified, toInt?, Double.toInt?_unified]

theorem length_unifiedEntries (entries : List (Value × Value)) :
    (unifiedEntries entries).length = entries.length := by
  rw [unifiedEntries_eq, List.length_map]

theorem same_tuple_simple (items : List Value) (code : Nat) :
    (Value.tuple items).unified.same (.simple code) = (Value.tuple items).same (.simple code) := by
  match items with
  | [] => rfl
  | [item] => simp [unified, unifiedAll, same]
  | _ :: _ :: _ => simp [unified, unifiedAll, same, toInt?]

theorem same_simple_tuple (code : Nat) (items : List Value) :
    (Value.simple code).same (Value.tuple items).unified = (Value.simple code).same (.tuple items) := by
  match items with
  | [] => rfl
  | [item] => simp [unified, unifiedAll, same]
  | _ :: _ :: _ => simp [unified, unifiedAll, same, toInt?]

mutual

/-- Equality does not look into numbers that are not numbers. -/
theorem same_unified : (a b : Value) → a.unified.same b.unified = a.same b
  | .list items, b => by
    cases b <;> simp [unified, same, toInt?, sameAll_unified items]
  | .map entries, b => by
    cases b <;> simp [unified, same, toInt?, sameEntries_unified entries, length_unifiedEntries]
  | .tag number content, b => by
    cases b <;> simp [unified, same, toInt?, same_unified content]
  | .tuple items, b => by
    cases b with
    | simple code => exact same_tuple_simple items code
    | _ => simp [unified, same, toInt?, sameAll_unified items]
  | .simple code, b => by
    cases b with
    | tuple items => exact same_simple_tuple code items
    | _ => simp [unified, same, toInt?]
  | .float x, b => by
    cases b <;> simp [unified, same, toInt?, Double.toInt?_unified, Double.same_unified]
  | .null, b | .bool _, b | .int _, b | .text _, b | .bytes _, b | .undefined, b
  | .breakMark, b | .cid _, b | .record .., b | .shared _, b | .foreign, b => by
    cases b <;> simp [unified, same, toInt?, Double.toInt?_unified]

theorem sameAll_unified : (as bs : List Value) →
    sameAll (unifiedAll as) (unifiedAll bs) = sameAll as bs
  | [], [] | [], _ :: _ | _ :: _, [] => by simp [unifiedAll, sameAll]
  | a :: as, b :: bs => by
    simp only [unifiedAll, sameAll, same_unified a, sameAll_unified as]

theorem sameEntries_unified : (as bs : List (Value × Value)) →
    sameEntries (unifiedEntries as) (unifiedEntries bs) = sameEntries as bs
  | [], _ => by simp [unifiedEntries, sameEntries]
  | (key, value) :: rest, others => by
    have found : (unifiedEntries others).any
        (fun (other, content) => key.unified.same other && value.unified.same content) =
        others.any fun (other, content) => key.same other && value.same content := by
      rw [unifiedEntries_eq, List.any_map]
      congr 1
      funext entry
      simp only [Function.comp, same_unified key, same_unified value]
    simp only [unifiedEntries, sameEntries, sameEntries_unified rest, found]

end

/-- Each key is different from those before it. -/
def Distinct (entries : List (Value × Value)) : Prop :=
  (entries.map (·.1)).Pairwise fun old key => key.same old = false

theorem Distinct.unified (distinct : Distinct entries) : Distinct (unifiedEntries entries) := by
  have keys : (unifiedEntries entries).map (·.1) = (entries.map (·.1)).map Value.unified := by
    simp [unifiedEntries_eq]
  rw [Distinct, keys, List.pairwise_map]
  exact distinct.imp fun differs => by rw [same_unified, differs]

mutual

/-- What reading can give, inside of keys if `frozen`: arrays are tuples in keys and lists
elsewhere, the keys of maps are different, and nothing is longer than what can be addressed. -/
def Read (frozen : Bool) : Value → Prop
  | .null | .bool _ | .float _ | .undefined | .breakMark => True
  | .int n => (Cbor.minimalBytes (Cbor.magnitude n)).length ≤ Cbor.Reader.maxString
  | .text content => content.toUTF8.toList.length ≤ Cbor.Reader.maxString
  | .bytes content => content.length ≤ Cbor.Reader.maxString
  | .list items => frozen = false ∧ items.length ≤ Cbor.Reader.maxArray ∧ ReadAll frozen items
  | .tuple items => frozen = true ∧ items.length ≤ Cbor.Reader.maxArray ∧ ReadAll frozen items
  | .map entries => entries.length ≤ Cbor.Reader.maxArray ∧ Distinct entries ∧
      ReadEntries frozen entries
  | .tag number content => number < Nat.pow 2 64 ∧ number ≠ 2 ∧ number ≠ 3 ∧ content.Read frozen
  | .simple code => code < 256
  | _ => False

/-- The same for several values. -/
def ReadAll (frozen : Bool) : List Value → Prop
  | [] => True
  | item :: rest => item.Read frozen ∧ ReadAll frozen rest

/-- The same for entries. -/
def ReadEntries (frozen : Bool) : List (Value × Value) → Prop
  | [] => True
  | (key, value) :: rest => key.Read true ∧ value.Read frozen ∧ ReadEntries frozen rest

end

mutual

/-- No part is a break, or a simple value whose short form is that of a truth value, null or
undefined. -/
def Lasting : Value → Prop
  | .breakMark => False
  | .simple code => code < 20 ∨ 23 < code
  | .list items => LastingAll items
  | .tuple items => LastingAll items
  | .map entries => LastingEntries entries
  | .tag _ content => content.Lasting
  | _ => True

/-- The same for several values. -/
def LastingAll : List Value → Prop
  | [] => True
  | item :: rest => item.Lasting ∧ LastingAll rest

/-- The same for entries. -/
def LastingEntries : List (Value × Value) → Prop
  | [] => True
  | (key, value) :: rest => key.Lasting ∧ value.Lasting ∧ LastingEntries rest

end

theorem readAll_iff {frozen : Bool} {items : List Value} :
    ReadAll frozen items ↔ ∀ item ∈ items, item.Read frozen := by
  induction items with
  | nil => simp [ReadAll]
  | cons item rest ih => simp [ReadAll, ih]

theorem lastingAll_iff {items : List Value} : LastingAll items ↔ ∀ item ∈ items, item.Lasting := by
  induction items with
  | nil => simp [LastingAll]
  | cons item rest ih => simp [LastingAll, ih]

theorem assign_of_differs {value : Value} (differs : ∀ entry ∈ entries, key.same entry.1 = false) :
    assign key value entries = entries ++ [(key, value)] := by
  induction entries with
  | nil => rfl
  | cons entry rest ih =>
    obtain ⟨old, before⟩ := entry
    have other : key.same old = false := differs _ List.mem_cons_self
    rw [assign, other, ih fun entry member => differs entry (List.mem_cons_of_mem _ member)]
    rfl

/-- Assigning entries with different keys adds them one after the other. -/
theorem foldl_assign_of_distinct {more done : List (Value × Value)}
    (distinct : Distinct (done ++ more)) :
    more.foldl (fun done entry => assign entry.1 entry.2 done) done = done ++ more := by
  induction more generalizing done with
  | nil => simp
  | cons entry rest ih =>
    have differs : ∀ old ∈ done, entry.1.same old.1 = false := by
      intro old member
      rw [Distinct, List.map_append, List.pairwise_append] at distinct
      exact distinct.2.2 old.1 (List.mem_map_of_mem member) entry.1 List.mem_cons_self
    rw [List.foldl_cons, assign_of_differs differs, ih (by simpa using distinct)]
    simp

theorem ofEntries_of_distinct (distinct : Distinct entries) : ofEntries entries = .map entries :=
  congrArg Value.map (@foldl_assign_of_distinct entries [] distinct)

theorem same_eq_false_of_ne {a b : Value} (ha : a.IsKey) (hb : b.IsKey) (h : a ≠ b) :
    a.same b = false := by
  cases a <;> cases b <;> simp_all [IsKey, same, toInt?]

theorem distinct_of_nodup (areKeys : ∀ entry ∈ entries, entry.1.IsKey)
    (nodup : (entries.map (·.1)).Nodup) : Distinct entries := by
  refine List.Pairwise.imp_of_mem (fun isOld isKey differs => ?_) nodup
  obtain ⟨old, member, rfl⟩ := List.mem_map.mp isOld
  obtain ⟨entry, member', rfl⟩ := List.mem_map.mp isKey
  exact same_eq_false_of_ne (areKeys entry member') (areKeys old member) differs.symm

theorem isKey_of_plainEntries (plain : PlainEntries entries) :
    ∀ entry ∈ entries, entry.1.IsKey := by
  induction entries with
  | nil => simp
  | cons entry rest ih => exact List.forall_mem_cons.mpr ⟨plain.1, ih plain.2.2.2⟩

theorem read_of_isKey (isKey : key.IsKey) (plain : key.Plain) :
    key.Read true ∧ key.Lasting := by
  cases key with
  | int | text | bytes => exact ⟨plain, trivial⟩
  | _ => exact isKey.elim

mutual

/-- Plain values can be read and last. -/
theorem read_of_plain : (value : Value) → value.Plain → value.Read false ∧ value.Lasting
  | .null, _ | .bool _, _ | .float _, _ => ⟨trivial, trivial⟩
  | .int _, plain | .text _, plain | .bytes _, plain => ⟨plain, trivial⟩
  | .list items, plain => by
    obtain ⟨read, lasting⟩ := readAll_of_plain items plain.2
    exact ⟨⟨rfl, plain.1, read⟩, lasting⟩
  | .map entries, plain => by
    obtain ⟨read, lasting⟩ := readEntries_of_plain entries plain.2.2
    have distinct := distinct_of_nodup (isKey_of_plainEntries plain.2.2) plain.2.1
    exact ⟨⟨plain.1, distinct, read⟩, lasting⟩
  | .tuple _, plain | .tag .., plain | .simple _, plain | .undefined, plain | .breakMark, plain
  | .cid _, plain | .record .., plain | .shared _, plain | .foreign, plain => plain.elim

theorem readAll_of_plain : (items : List Value) → PlainAll items →
    ReadAll false items ∧ LastingAll items
  | [], _ => ⟨trivial, trivial⟩
  | item :: rest, plain => by
    obtain ⟨read, lasting⟩ := read_of_plain item plain.1
    obtain ⟨readRest, lastingRest⟩ := readAll_of_plain rest plain.2
    exact ⟨⟨read, readRest⟩, ⟨lasting, lastingRest⟩⟩

theorem readEntries_of_plain : (entries : List (Value × Value)) → PlainEntries entries →
    ReadEntries false entries ∧ LastingEntries entries
  | [], _ => ⟨trivial, trivial⟩
  | (key, value) :: rest, plain => by
    obtain ⟨readKey, lastingKey⟩ := read_of_isKey plain.1 plain.2.1
    obtain ⟨read, lasting⟩ := read_of_plain value plain.2.2.1
    obtain ⟨readRest, lastingRest⟩ := readEntries_of_plain rest plain.2.2.2
    exact ⟨⟨readKey, read, readRest⟩, ⟨lastingKey, lasting, lastingRest⟩⟩

end

end Value

namespace Cbor

open Reader
variable {pairs : List (Value × Value)} {values : List Value} {frozen : Bool}

/-- A value is written, and read as another one, whatever follows it. -/
def Carries (frozen : Bool) (value found : Value) : Prop :=
  ∃ data, encode value = .ok data ∧ ∀ depth rest, data.length ≤ depth →
    item depth frozen (data ++ rest) = .ok (found, rest)

theorem length_head_pos (major n : Nat) : 0 < (head major n).length := by
  unfold head
  split_ifs <;> simp

/-- An item that is written as a head and some bytes is read as the head says. -/
theorem carries_of_head (hm : major ≤ 6) (hn : n < Nat.pow 2 64)
    (written : encode value = .ok (head major n ++ bytes))
    (reads : ∀ depth rest, bytes.length ≤ depth →
      body depth frozen n major (bytes ++ rest) = .ok (found, rest)) :
    Carries frozen value found := by
  refine ⟨_, written, fun depth rest deep => ?_⟩
  have positive := length_head_pos major n
  rw [List.length_append] at deep
  obtain ⟨depth, rfl⟩ : ∃ d, depth = d + 1 := ⟨depth - 1, by omega⟩
  rw [List.append_assoc, item_head hm hn]
  exact reads depth rest (by omega)

theorem maxString_lt : maxString < Nat.pow 2 64 := by decide

theorem content_append {kind : String} (h : bytes.length ≤ maxString) (rest : Bytes) :
    content kind bytes.length (bytes ++ rest) = .ok (bytes, rest) := by
  rw [content, if_neg (by omega)]
  exact takePieces_append rfl rest

theorem carries_bytes (h : bytes.length ≤ maxString) (frozen : Bool) :
    Carries frozen (.bytes bytes) (.bytes bytes) :=
  carries_of_head (by decide) (h.trans_lt maxString_lt) rfl fun _ rest _ =>
    map_of_ok (content_append h rest)

theorem toList_loop (bytes : ByteArray) (i : Nat) (seen : List UInt8) :
    ByteArray.toList.loop bytes i seen = seen.reverse ++ bytes.data.toList.drop i := by
  induction h : bytes.size - i generalizing i seen with
  | zero =>
    have done : bytes.data.toList.length ≤ i := by
      rw [Array.length_toList]
      exact Nat.sub_eq_zero_iff_le.mp h
    rw [ByteArray.toList.loop, if_neg (by omega), List.drop_eq_nil_of_le done, List.append_nil]
  | succ left ih =>
    have inside : i < bytes.size := by omega
    have found : bytes.get! i = bytes.data[i] := getElem!_pos bytes.data i inside
    have inList : i < bytes.data.toList.length := by
      rw [Array.length_toList]
      exact inside
    rw [ByteArray.toList.loop, if_pos inside, ih (i + 1) _ (by omega),
      List.drop_eq_getElem_cons inList, found]
    simp

theorem toByteArray_toList (bytes : ByteArray) : bytes.toList.toByteArray = bytes := by
  rw [ByteArray.toList, toList_loop]
  apply ByteArray.ext
  rw [List.data_toByteArray]
  simp

theorem textOf_toUTF8 (value : String) : textOf value.toUTF8.toList = pure value := by
  have valid : value.toUTF8.IsValidUTF8 := value.isValidUTF8
  rw [textOf, toByteArray_toList, String.fromUTF8?, dif_pos valid]
  rfl

theorem carries_text {value : String} (h : value.toUTF8.toList.length ≤ maxString)
    (frozen : Bool) : Carries frozen (.text value) (.text value) := by
  refine carries_of_head (by decide) (h.trans_lt maxString_lt) rfl fun depth rest _ => ?_
  refine map_of_ok ?_
  rw [bind_of_ok (content_append h rest), textOf_toUTF8]
  rfl

/-- A number is read as the integer that it was written for, with or without a tag. -/
theorem carries_number {n : Int} {m : Nat} (kind : major = 0 ∨ major = 1)
    (sign : n = if major = 0 then (m : Int) else -1 - (m : Int))
    (written : integer n = number major (major + 2) m) (h : (minimalBytes m).length ≤ maxString)
    (frozen : Bool) : Carries frozen (.int n) (.int n) := by
  by_cases short : m < Nat.pow 2 64
  · have writes : encode (.int n) = .ok (head major m ++ []) := by
      rw [encode, written, number, if_pos short, List.append_nil]
    refine carries_of_head (by omega) short writes fun depth rest _ => ?_
    rcases kind with rfl | rfl <;> subst sign <;> rfl
  · have writes : encode (.int n) = .ok (head 6 (major + 2) ++
        (head 2 (minimalBytes m).length ++ minimalBytes m)) := by
      rw [encode, written, number, if_neg short, List.append_assoc]
    have tag : major + 2 < Nat.pow 2 64 := by
      have : major + 2 ≤ 3 := by omega
      exact this.trans_lt (by decide)
    refine carries_of_head (by decide) tag writes fun depth rest deep => ?_
    obtain ⟨data, writes, reads⟩ := carries_bytes h frozen
    obtain rfl : data = head 2 (minimalBytes m).length ++ minimalBytes m :=
      (Except.ok.inj writes).symm
    rw [body, bind_of_ok (reads depth rest deep)]
    rcases kind with rfl | rfl <;>
      simp [tagValue, sign, toNat_minimalBytes] <;> rfl

theorem carries_int {n : Int} (h : (minimalBytes (magnitude n)).length ≤ maxString)
    (frozen : Bool) : Carries frozen (.int n) (.int n) := by
  cases n with
  | ofNat n => exact carries_number (.inl rfl) rfl rfl h frozen
  | negSucc n =>
    have counted : Int.negSucc n = -1 - (n : Int) := by omega
    exact carries_number (.inr rfl) counted rfl h frozen

theorem item_special (isSpecial : first.toNat / 32 = 7) (depth : Nat) (frozen : Bool)
    (bytes : Bytes) :
    item (depth + 1) frozen (first :: bytes) = special (first.toNat % 32) bytes := by
  have opened : next (first :: bytes) = .ok (first, bytes) := rfl
  rw [item, bind_of_ok opened]
  simp only [isSpecial]

/-- A value of the last major type is read as its information bits say. -/
theorem carries_of_special (isSpecial : first.toNat / 32 = 7)
    (written : encode value = .ok (first :: bytes))
    (reads : ∀ rest, special (first.toNat % 32) (bytes ++ rest) = .ok (found, rest)) :
    Carries frozen value found := by
  refine ⟨_, written, fun depth rest deep => ?_⟩
  rw [List.length_cons] at deep
  obtain ⟨depth, rfl⟩ : ∃ d, depth = d + 1 := ⟨depth - 1, by omega⟩
  rw [List.cons_append, item_special isSpecial]
  exact reads rest

theorem carries_null (frozen : Bool) : Carries frozen .null .null :=
  carries_of_special (by decide) rfl fun _ => rfl

theorem carries_bool (value frozen : Bool) : Carries frozen (.bool value) (.bool value) := by
  cases value <;> exact carries_of_special (by decide) rfl fun _ => rfl

theorem bits_of_infinite {x : Double} {negative : Bool} (h : x.parts = .infinite negative) :
    x = ⟨if negative then 0xfff0000000000000 else 0x7ff0000000000000⟩ := by
  obtain ⟨bits⟩ := x
  have bounded : bits.toNat < 18446744073709551616 := bits.toNat_lt
  have powers : Nat.pow 2 52 = 4503599627370496 ∧ Nat.pow 2 11 = 2048 ∧
      Nat.pow 2 (52 + 11) = 9223372036854775808 := by decide
  simp only [Double.parts, FloatFormat.parts, FloatFormat.double, powers] at h
  split_ifs at h with exponent fraction
  injection h with sign
  congr 1
  apply UInt64.toNat_inj.mp
  cases negative with
  | true =>
    have : bits.toNat = 18442240474082181120 := by
      simp only [decide_eq_true_eq] at sign
      omega
    simpa using this
  | false =>
    have : bits.toNat = 9218868437227405312 := by
      simp only [decide_eq_false_iff_not] at sign
      omega
    simpa using this

theorem special_half (h : bits < 256 ^ 2) (rest : Bytes) :
    special 25 (Bytes.ofNat 2 bits ++ rest) = .ok (.float (.ofFormat .half bits), rest) := by
  change (takeNat 2 >>= fun bits => pure (Value.float (.ofFormat .half bits))) _ = _
  rw [bind_of_ok (takeNat_ofNat h rest)]
  rfl

theorem special_double (h : bits < 256 ^ 8) (rest : Bytes) :
    special 27 (Bytes.ofNat 8 bits ++ rest) = .ok (.float ⟨UInt64.ofNat bits⟩, rest) := by
  change (takeNat 8 >>= fun bits => pure (Value.float ⟨UInt64.ofNat bits⟩)) _ = _
  rw [bind_of_ok (takeNat_ofNat h rest)]
  rfl

theorem carries_float (x : Double) : Carries frozen (.float x) (.float x.unified) := by
  cases h : x.parts with
  | nan =>
    have writes : encode (.float x) = .ok (0xf9 :: Bytes.ofNat 2 0x7e00) := by
      rw [encode, double, h]
      rfl
    rw [Double.unified, if_pos h]
    exact carries_of_special (by decide) writes fun rest => special_half (by decide) rest
  | infinite negative =>
    have writes : encode (.float x) =
        .ok (0xf9 :: Bytes.ofNat 2 (if negative then 0xfc00 else 0x7c00)) := by
      rw [encode, double, h]
      cases negative <;> rfl
    have kept : x.unified = x := if_neg (by simp [h])
    refine carries_of_special (by decide) writes fun rest => ?_
    rw [kept, bits_of_infinite h]
    cases negative <;> exact special_half (by decide) rest
  | finite negative significand exponent =>
    have writes : encode (.float x) = .ok (0xfb :: Bytes.ofNat 8 x.bits.toNat) := by
      rw [encode, double, h]
    refine carries_of_special (by decide) writes fun rest => ?_
    have kept : x.unified = ⟨UInt64.ofNat x.bits.toNat⟩ := by simp [Double.unified, h]
    rw [kept]
    exact special_double x.bits.toNat_lt rest

/-- Values are written one after the other, and read as many as they are. -/
def CarryAll (frozen : Bool) (values found : List Value) : Prop :=
  ∃ data, encodeAll values = .ok data ∧ ∀ depth rest, data.length ≤ depth →
    items (item depth frozen) values.length (data ++ rest) = .ok (found, rest)

/-- The same for entries. -/
def CarryEntries (frozen : Bool) (pairs found : List (Value × Value)) : Prop :=
  ∃ data, encodeEntries pairs = .ok data ∧ ∀ depth rest, data.length ≤ depth →
    entries (item depth frozen) (item depth true) pairs.length (data ++ rest) = .ok (found, rest)

theorem CarryAll.cons {others : List Value} (rest : CarryAll frozen values others)
    (first : Carries frozen value found) : CarryAll frozen (value :: values) (found :: others) := by
  obtain ⟨data, writes, reads⟩ := first
  obtain ⟨more, writesMore, readsMore⟩ := rest
  refine ⟨data ++ more, by simp only [encodeAll, writes, writesMore]; rfl, fun depth rest deep => ?_⟩
  rw [List.length_append] at deep
  rw [List.append_assoc, List.length_cons, items, bind_of_ok (reads depth _ (by omega)),
    bind_of_ok (readsMore depth rest (by omega))]
  rfl

theorem CarryEntries.cons {keyFound : Value} {others : List (Value × Value)}
    (rest : CarryEntries frozen pairs others) (first : Carries true key keyFound)
    (second : Carries frozen value found) :
    CarryEntries frozen ((key, value) :: pairs) ((keyFound, found) :: others) := by
  obtain ⟨data, writes, reads⟩ := first
  obtain ⟨content, writesValue, readsValue⟩ := second
  obtain ⟨more, writesMore, readsMore⟩ := rest
  refine ⟨data ++ content ++ more, by simp only [encodeEntries, writes, writesValue, writesMore]; rfl,
    fun depth rest deep => ?_⟩
  rw [List.length_append, List.length_append] at deep
  rw [List.append_assoc, List.append_assoc, List.length_cons, entries,
    bind_of_ok (reads depth _ (by omega)), bind_of_ok (readsValue depth _ (by omega)),
    bind_of_ok (readsMore depth rest (by omega))]
  rfl

/-- Whatever is written as a list of parts is read as the list of what they are read as, or as a tuple
in keys. -/
theorem carries_parts {found : List Value} (written : encode value = encode (.list values))
    (short : values.length ≤ maxArray) (all : CarryAll frozen values found) :
    Carries frozen value (if frozen then .tuple found else .list found) := by
  obtain ⟨data, writes, reads⟩ := all
  have head : encode value = .ok (head 4 values.length ++ data) := by
    rw [written]
    simp only [encode, writes]
    rfl
  refine carries_of_head (by decide) (short.trans_lt (by decide)) head fun depth rest deep => ?_
  rw [body, if_neg (by omega)]
  exact map_of_ok (reads depth rest deep)

theorem carries_map {found : List (Value × Value)} (short : pairs.length ≤ maxArray)
    (distinct : Value.Distinct found) (all : CarryEntries frozen pairs found) :
    Carries frozen (.map pairs) (.map found) := by
  obtain ⟨data, writes, reads⟩ := all
  have written : encode (.map pairs) = .ok (head 5 pairs.length ++ data) := by
    simp only [encode, writes]
    rfl
  refine carries_of_head (by decide) (short.trans_lt (by decide)) written fun depth rest deep => ?_
  rw [← Value.ofEntries_of_distinct distinct]
  exact map_of_ok (reads depth rest deep)

/-- A value is written, and read as itself with numbers that are not numbers in one form. -/
abbrev Keeps (frozen : Bool) (value : Value) : Prop :=
  Carries frozen value value.unified

theorem keeps_tag {number : Nat} {content : Value} (bounded : number < Nat.pow 2 64)
    (plain : number ≠ 2 ∧ number ≠ 3) (kept : Keeps frozen content) :
    Keeps frozen (.tag number content) := by
  obtain ⟨data, writes, reads⟩ := kept
  have written : encode (.tag number content) = .ok (head 6 number ++ data) := by
    simp only [encode, writes]
    rfl
  rw [Keeps, Value.unified]
  refine carries_of_head (by decide) bounded written fun depth rest deep => ?_
  rw [body, bind_of_ok (reads depth rest deep)]
  unfold tagValue
  rw [if_neg (by omega)]
  rfl

theorem keeps_simple {code : Nat} (bounded : code < 256) (lasts : code < 20 ∨ 23 < code) :
    Keeps frozen (.simple code) := by
  rcases lasts with low | high
  · have first := initialByte_toNat (show 7 < 8 by decide) (show code < 32 by omega)
    have written : encode (.simple code) = .ok (initialByte 7 code :: []) := by
      rw [encode, head, if_pos (by omega)]
    refine carries_of_special (by omega) written fun rest => ?_
    have info : (initialByte 7 code).toNat % 32 = code := by omega
    rw [info, special]
    repeat rw [if_neg (by omega)]
    rfl
  · have written : encode (.simple code) = .ok (0xf8 :: Bytes.ofNat 1 code) := by
      rw [encode, head, if_neg (by omega), if_pos bounded]
      rfl
    refine carries_of_special (by decide) written fun rest => ?_
    change (takeNat 1 >>= fun code => pure (Value.simple code)) _ = _
    rw [bind_of_ok (takeNat_ofNat bounded rest)]
    rfl

mutual

/-- What can be read and lasts is written, and read as the same. -/
theorem keeps_read : (value : Value) → (frozen : Bool) → value.Read frozen → value.Lasting →
    Keeps frozen value
  | .null, frozen, _, _ => carries_null frozen
  | .bool value, frozen, _, _ => carries_bool value frozen
  | .float x, _, _, _ => carries_float x
  | .undefined, _, _, _ => carries_of_special (by decide) rfl fun _ => rfl
  | .int _, frozen, read, _ => carries_int read frozen
  | .text _, frozen, read, _ => carries_text read frozen
  | .bytes _, frozen, read, _ => carries_bytes read frozen
  | .list items, frozen, read, lasting => by
    obtain rfl := read.1
    exact carries_parts rfl read.2.1 (keep_readAll items false read.2.2 lasting)
  | .tuple items, frozen, read, lasting => by
    obtain rfl := read.1
    exact carries_parts rfl read.2.1 (keep_readAll items true read.2.2 lasting)
  | .map pairs, frozen, read, lasting =>
    carries_map read.1 read.2.1.unified (keep_readEntries pairs frozen read.2.2 lasting)
  | .tag _ content, frozen, read, lasting =>
    keeps_tag read.1 ⟨read.2.1, read.2.2.1⟩ (keeps_read content frozen read.2.2.2 lasting)
  | .simple _, _, read, lasting => keeps_simple read lasting
  | .breakMark, _, _, lasting => lasting.elim
  | .cid _, _, read, _ | .record .., _, read, _ | .shared _, _, read, _ | .foreign, _, read, _ =>
    read.elim

theorem keep_readAll : (values : List Value) → (frozen : Bool) → Value.ReadAll frozen values →
    Value.LastingAll values → CarryAll frozen values (Value.unifiedAll values)
  | [], _, _, _ => ⟨[], rfl, fun _ _ _ => rfl⟩
  | value :: values, frozen, read, lasting =>
    (keep_readAll values frozen read.2 lasting.2).cons (keeps_read value frozen read.1 lasting.1)

theorem keep_readEntries : (pairs : List (Value × Value)) → (frozen : Bool) →
    Value.ReadEntries frozen pairs → Value.LastingEntries pairs →
      CarryEntries frozen pairs (Value.unifiedEntries pairs)
  | [], _, _, _ => ⟨[], rfl, fun _ _ _ => rfl⟩
  | (key, value) :: pairs, frozen, read, lasting =>
    (keep_readEntries pairs frozen read.2.2 lasting.2.2).cons
      (keeps_read key true read.1 lasting.1) (keeps_read value frozen read.2.1 lasting.2.1)

end

/-- Every plain value is written, and read in its unified form. -/
theorem carries_plain (plain : value.Plain) : Carries false value value.unified := by
  obtain ⟨read, lasting⟩ := Value.read_of_plain value plain
  exact keeps_read value false read lasting

theorem Carries.decode (carries : Carries false value found) :
    ∃ data, encode value = .ok data ∧ decode data = .ok found := by
  obtain ⟨data, writes, reads⟩ := carries
  refine ⟨data, writes, ?_⟩
  have read := reads (data.length + 1) [] (by omega)
  rw [List.append_nil] at read
  change (item (data.length + 1) false data).map (·.1) = _
  rw [read]
  rfl

/-- Lists of plain values are written the same as tuples and as the fields of records, and read as
lists. -/
theorem decode_encode_list (short : values.length ≤ maxArray) (plain : Value.PlainAll values) :
    ∃ data, encode (.tuple values) = .ok data ∧
      decode data = .ok (.list (Value.unifiedAll values)) :=
  (@carries_plain (.list values) ⟨short, plain⟩).decode

theorem encodeFields_eq (fields : List (String × Value)) :
    encodeFields fields = encodeAll (fields.map (·.2)) := by
  induction fields with
  | nil => rfl
  | cons field rest ih => simp only [encodeFields, encodeAll, List.map_cons, ih]

theorem encode_record (name : String) (fields : List (String × Value)) :
    encode (.record name fields) = encode (.tuple (fields.map (·.2))) := by
  simp only [encode, encodeFields_eq, List.length_map]

end Cbor

end ActorGlue
