import ActorGlue.Content.Cid
import Mathlib.Data.List.Basic

/-!
# Identifiers are told apart by their bytes and their texts

A number is read back from its bytes whatever stands behind them, so the four numbers at the head
of an identifier delimit themselves and the digest: no identifier begins with another one. The
symbols of base 32 stand for five bits each, and the bits of whole bytes are never confused with
the ones that fill the last symbol.
-/

namespace ActorGlue

theorem Varint.decode?_encode (n : Nat) (rest : Bytes) :
    decode? (encode n ++ rest) = some (n, rest) := by
  fun_induction encode n with
  | case1 n small =>
    have byte : (UInt8.ofNat n).toNat = n := by rw [UInt8.toNat_ofNat']; omega
    simp [decode?, byte, small]
  | case2 n large ih =>
    have byte : (UInt8.ofNat (n % 128 + 128)).toNat = n % 128 + 128 := by
      rw [UInt8.toNat_ofNat']
      omega
    have continues : ¬n % 128 + 128 < 128 := by omega
    simp only [List.cons_append, decode?, byte, continues, if_false, ih, Option.map_some]
    rw [Nat.add_sub_cancel, Nat.mod_add_div]

namespace Base32

variable {a b c d e a' b' c' d' e' : Bool}

theorem length_symbols (bits : List Bool) : (symbols bits).length = (bits.length + 4) / 5 := by
  fun_induction symbols bits with
  | case6 a b c d e rest ih => simp only [List.length_cons, ih]; omega
  | _ => simp

theorem symbol_number_inj
    (same : symbol (number [a, b, c, d, e]) = symbol (number [a', b', c', d', e'])) :
    a = a' ∧ b = b' ∧ c = c' ∧ d = d' ∧ e = e' := by
  revert a b c d e a' b' c' d' e'
  decide +kernel

/-- Symbols determine as many bits as are known to stand in them. -/
theorem symbols_inj {bits others : List Bool} (length : bits.length = others.length)
    (same : symbols bits = symbols others) : bits = others := by
  fun_induction symbols bits generalizing others with
  | case1 => simpa using length.symm
  | case6 a b c d e rest ih =>
    obtain ⟨a', b', c', d', e', rest', rfl⟩ : ∃ a' b' c' d' e' rest',
        others = a' :: b' :: c' :: d' :: e' :: rest' := by
      rcases others with _ | ⟨_, _ | ⟨_, _ | ⟨_, _ | ⟨_, _ | ⟨_, _⟩⟩⟩⟩⟩ <;> simp at length ⊢
    simp only [symbols, List.cons.injEq] at same
    obtain ⟨rfl, rfl, rfl, rfl, rfl⟩ := symbol_number_inj same.1
    rw [ih (by simpa using length) same.2]
  | _ =>
    rcases others with _ | ⟨_, _ | ⟨_, _ | ⟨_, _ | ⟨_, _ | ⟨_, _⟩⟩⟩⟩⟩ <;> simp at length
    simp only [symbols, List.cons.injEq, and_true] at same
    simpa using symbol_number_inj same

theorem number_bits (byte : UInt8) : number (bits byte) = byte.toNat := by
  have all : ∀ n : Fin 256, number ([7, 6, 5, 4, 3, 2, 1, 0].map n.val.testBit) = n.val := by
    decide +kernel
  exact all ⟨byte.toNat, byte.toNat_lt⟩

theorem length_flatMap_bits (bytes : Bytes) : (bytes.flatMap bits).length = 8 * bytes.length := by
  simp [bits, Nat.mul_comm]

theorem flatMap_bits_inj {bytes others : Bytes} (same : bytes.flatMap bits = others.flatMap bits) :
    bytes = others := by
  induction bytes generalizing others with
  | nil =>
    cases others with
    | nil => rfl
    | cons => cases same
  | cons byte rest ih =>
    cases others with
    | nil => cases same
    | cons byte' rest' =>
      rw [List.flatMap_cons, List.flatMap_cons] at same
      obtain ⟨first, behind⟩ := List.append_inj same rfl
      have equal : byte = byte' := by
        rw [← UInt8.toNat_inj, ← number_bits, first, number_bits]
      rw [equal, ih behind]

theorem encode_injective : Function.Injective encode := by
  intro bytes others same
  apply flatMap_bits_inj
  apply symbols_inj _ same
  -- The fill is shorter than a byte, so the number of symbols tells the number of bytes.
  have length := congrArg List.length same
  simp only [encode, length_symbols, length_flatMap_bits] at length ⊢
  omega

end Base32

namespace Cid

/-- The identifier at the start of bytes, and the bytes after it. -/
def read? (bytes : Bytes) : Option (Cid × Bytes) := do
  let (version, bytes) ← Varint.decode? bytes
  let (codec, bytes) ← Varint.decode? bytes
  let (hash, bytes) ← Varint.decode? bytes
  let (size, bytes) ← Varint.decode? bytes
  some (⟨codec, hash, bytes.take size, version⟩, bytes.drop size)

theorem read?_bytes (cid : Cid) (rest : Bytes) : read? (cid.bytes ++ rest) = some (cid, rest) := by
  simp [read?, bytes, List.append_assoc, Varint.decode?_encode]

theorem eq_of_prefix_bytes {first second : Cid} (begins : first.bytes <+: second.bytes) :
    first = second := by
  obtain ⟨rest, same⟩ := begins
  have read := read?_bytes first rest
  rw [same, ← List.append_nil second.bytes, read?_bytes] at read
  cases read
  rfl

theorem text_injective : Function.Injective text := by
  intro first second same
  have symbols := List.cons.inj (String.ofList_injective same)
  exact eq_of_prefix_bytes (Base32.encode_injective symbols.2 ▸ List.prefix_rfl)

/-- Identifiers have the same bytes, or the same text, only if they are the same; none begins with
the bytes of another one, and the numbers at the head are read back one after the other. -/
theorem identified_by_bytes_and_text (first second : Cid) :
    (first.bytes = second.bytes ↔ first = second) ∧ (first.text = second.text ↔ first = second) ∧
      (first.bytes <+: second.bytes → first.bytes = second.bytes) ∧
      ∃ behindVersion behindCodec behindHash,
        Varint.decode? first.bytes = some (first.version, behindVersion) ∧
        Varint.decode? behindVersion = some (first.codec, behindCodec) ∧
        Varint.decode? behindCodec = some (first.hash, behindHash) ∧
        Varint.decode? behindHash = some (first.digest.length, first.digest) := by
  refine ⟨⟨fun same => eq_of_prefix_bytes (same ▸ List.prefix_rfl), congrArg bytes⟩,
    text_injective.eq_iff, fun begins => congrArg bytes (eq_of_prefix_bytes begins), ?_⟩
  refine ⟨_, _, _, ?_, Varint.decode?_encode .., Varint.decode?_encode ..,
    Varint.decode?_encode ..⟩
  simp only [bytes, List.append_assoc, Varint.decode?_encode]

end Cid

end ActorGlue
