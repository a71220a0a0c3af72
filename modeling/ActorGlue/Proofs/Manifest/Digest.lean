import ActorGlue.Manifest.Basic
import ActorGlue.Proofs.Document.Json

/-!
# What the digest of a manifest covers

The bytes that are hashed for two manifests are equal exactly if the manifests are alike without
their digest and time. A manifest that verifies is thus the one that was built, up to the order of
fields and the time, unless it is another interface with a digest of its own or two texts have one
hash.
-/

namespace ActorGlue

/-- Two different byte strings have the same hash. -/
def Sha256.Collide (first second : Bytes) : Prop :=
  first ≠ second ∧ Sha256.hash first = Sha256.hash second

theorem Bytes.hex_inj {first second : Bytes} (same : Bytes.hex first = Bytes.hex second) :
    first = second := by
  have texts : first.flatMap (fun byte => Text.hexDigits 2 byte.toNat) =
      second.flatMap fun byte => Text.hexDigits 2 byte.toNat :=
    String.ofList_injective same
  induction first generalizing second with
  | nil =>
    cases second with
    | nil => rfl
    | cons byte rest => simp [Text.hexDigits] at texts
  | cons byte rest ih =>
    cases second with
    | nil => simp [Text.hexDigits] at texts
    | cons other others =>
      rw [List.flatMap_cons, List.flatMap_cons] at texts
      have lengths : (Text.hexDigits 2 byte.toNat).length =
        (Text.hexDigits 2 other.toNat).length := rfl
      obtain ⟨heads, tails⟩ := List.append_inj texts lengths
      have numbers := congrArg Text.hexNumber heads
      rw [Text.hexNumber_hexDigits byte.toNat_lt,
        Text.hexNumber_hexDigits other.toNat_lt] at numbers
      rw [UInt8.toNat_inj.mp numbers, ih (congrArg String.ofList tails) tails]

/-- A word of a machine is not too long to be written. -/
theorem Text.isWritable_of_lt {n : Int} (small : n.natAbs < 2 ^ 64) : isWritable n := by
  rw [isWritable, decide_eq_true_iff, Nat.length_toDigits_le_iff (by decide) (by decide)]
  calc n.natAbs < 2 ^ 64 := small
    _ < 10 ^ 64 := by decide
    _ ≤ 10 ^ maxDecimalDigits := Nat.pow_le_pow_right (by decide) (by decide)

@[simp] theorem MethodNumber.isWritable (number : MethodNumber) :
    Text.isWritable number.value :=
  Text.isWritable_of_lt number.bounded

section Documents

open Document

theorem Argument.proper_document (argument : Argument) : argument.document.Proper := by
  simp [Argument.document, Proper, ProperFields]

theorem EntryPoint.proper_document (entry : EntryPoint) : entry.document.Proper := by
  simp [EntryPoint.document, Proper, ProperFields, Document.nat, Argument.proper_document]

theorem Actor.proper_document (actor : Actor) : actor.document.Proper := by
  simp [Actor.document, Proper, ProperFields, EntryPoint.proper_document]

theorem StateStruct.proper_document (state : StateStruct) : state.document.Proper := by
  simp [StateStruct.document, StateField.document, Proper, ProperFields]

theorem Program.proper_document (program : Program) : program.document.Proper := by
  simp [Program.document, PayloadStruct.document, Proper, ProperFields,
    StateStruct.proper_document, Actor.proper_document]

namespace Glue

def Step.Proper (step : Step) : Prop :=
  (Document.object step.metadata).Proper ∧ (step.aborts.map (·.1)).Nodup ∧
    ∀ entry ∈ step.aborts, Text.isWritable entry.2.exitCode

theorem Instruction.proper_document {instruction : Instruction}
    (proper : instruction.toStep.Proper) : instruction.document.Proper := by
  have aborts : (Document.object
      (instruction.aborts.map fun entry => (entry.1, entry.2.document))).Proper := by
    constructor
    · simpa [Function.comp_def] using proper.2.1
    · rw [properFields_iff]
      intro field member
      obtain ⟨⟨kind, abort⟩, given, rfl⟩ := List.mem_map.mp member
      simpa [Abort.document, Document.Proper, ProperFields] using proper.2.2 _ given
  constructor
  · simp
  · exact ⟨trivial, trivial, by simp [Document.texts, Document.Proper], proper.1, aborts, trivial⟩

theorem Block.proper_ofSteps {name : String} {steps : List Step}
    (proper : ∀ step ∈ steps, step.Proper) : (Block.ofSteps name steps).document.Proper := by
  have instructions : ∀ instruction ∈ (Block.ofSteps name steps).instructions,
      instruction.document.Proper := by
    intro instruction member
    obtain ⟨⟨step, index⟩, among, rfl⟩ := List.mem_map.mp member
    exact Instruction.proper_document (proper step (List.fst_mem_of_mem_zipIdx among))
  simpa [Block.document, Document.Proper, ProperFields] using instructions

theorem proper_lowerState (state : StateStruct) : (lowerState state).document.Proper := by
  have load : ∀ step ∈ loadSteps state, step.Proper := by
    simp [loadSteps, Step.Proper, onError, stateMetadata, Document.Proper, ProperFields, or_imp,
      forall_and, Text.isWritable_of_lt, illegalState, serializationFailure]
  have save : ∀ step ∈ saveSteps state, step.Proper := by
    simp [saveSteps, Step.Proper, onError, stateMetadata, Document.nat, Document.Proper,
      ProperFields, Text.isWritable_of_lt, illegalState, serializationFailure, dagCborCodec,
      blake2b256, digestSize]
  simp [lowerState, StateInterface.document, Document.Proper, ProperFields,
    Block.proper_ofSteps load, Block.proper_ofSteps save]

theorem proper_lowerEntry (entry : EntryPoint) (stateType : String) :
    (lowerEntry entry stateType).document.Proper := by
  have arguments : ∀ step ∈ argumentSteps entry, step.Proper := by
    rw [argumentSteps]
    split_ifs
    · simp
    · simp [Step.Proper, onError, Document.Proper, ProperFields, Argument.proper_document,
        Text.isWritable_of_lt, serializationFailure]
  have load : ∀ step ∈ loadStateSteps entry stateType, step.Proper := by
    rw [loadStateSteps]
    split_ifs
    · simp [Step.Proper, Document.Proper, ProperFields]
    · simp
  apply Block.proper_ofSteps
  intro step member
  simp only [entrySteps, List.mem_append, List.mem_singleton] at member
  rcases member with ((((early | early) | rfl) | encoding) | saving) | rfl
  · exact arguments step early
  · exact load step early
  · simp [Step.Proper, Document.Proper, ProperFields]
  · split_ifs at encoding
    · simp_all [Step.Proper, onError, Document.Proper, ProperFields, Text.isWritable_of_lt,
        serializationFailure]
    · cases encoding
  · split_ifs at saving
    · simp_all [Step.Proper, Document.Proper, ProperFields]
    · cases saving
  · simp [Step.Proper, Document.Proper, ProperFields]

theorem proper_lowerActor (actor : Actor) (symbol : String) :
    (lowerActor actor symbol).document.Proper := by
  simp [lowerActor, DispatchTable.document, Case.document, Abort.document, Document.nat,
    Document.Proper, ProperFields, proper_lowerEntry, Text.isWritable_of_lt, unhandledAbort,
    unhandledMessage]

theorem proper_lower (program : Program) (symbol : String) :
    (lower program symbol).document.Proper := by
  simp [lower, Module.document, Document.Proper, ProperFields, proper_lowerState,
    proper_lowerActor]

end Glue

end Documents

namespace Manifest

variable {a b : Manifest}
variable (manifest : Manifest)

theorem stable_eq :
    manifest.stable = Document.erase "digest" (Document.erase "timestamp" manifest) := by
  rw [stable, Document.erase, Document.erase, List.filter_filter]
  apply List.filter_congr
  intro field _
  simp [volatile, Bool.and_comm]

theorem erase_comm (first second : String) : Document.erase first (Document.erase second manifest) =
    Document.erase second (Document.erase first manifest) :=
  List.filter_comm _ _ manifest

theorem hashed_eq_iff (proper : (Document.object a).Proper) (proper' : (Document.object b).Proper) :
    Bytes.ofAscii a.hashedText = Bytes.ofAscii b.hashedText ↔
      (Document.object a.stable).Alike (.object b.stable) := by
  have stableA : (Document.object a.stable).Proper := proper.filter _
  have stableB : (Document.object b.stable).Proper := proper'.filter _
  have canonicalA := Document.Proper.canonical _ stableA
  have canonicalB := Document.Proper.canonical _ stableB
  rw [← Document.canonical_eq_iff _ _ stableA stableB]
  constructor
  · intro same
    exact Document.compact_inj canonicalA canonicalB
      (Document.ofAscii_inj (Document.ascii_compact _ canonicalA)
        (Document.ascii_compact _ canonicalB) same)
  · intro same
    rw [hashedText, hashedText, canonical, canonical, same]

/-- A manifest verifies exactly if what is hashed of it can be written, and it carries its digest. -/
theorem verify_eq_ok_iff : manifest.verify = .ok () ↔ manifest.canonical.isWritable ∧
    Document.lookup "digest" manifest =
      some (.text (Bytes.hex (Sha256.hash (Bytes.ofAscii manifest.hashedText)))) := by
  rw [verify, digest]
  cases manifest.canonical.isWritable with
  | false => cases Document.lookup "digest" manifest <;> simp
  | true =>
    cases Document.lookup "digest" manifest with
    | none => simp
    | some document =>
      cases document with
      | text found =>
        simp only [if_true, true_and, Option.some.injEq, Document.text.injEq]
        split_ifs with same
        · simp [same]
        · simp [same]
      | _ => simp

/-- The canonical fields of a manifest are their own canonical form. -/
theorem canonical_idem : ∃ fields : Manifest,
    manifest.canonical = .object fields ∧ canonical fields = .object fields := by
  have idem := Document.canonical_canonical (.object manifest.stable)
  rw [canonical]
  simp only [Document.canonical] at idem ⊢
  have kept : stable (Document.sortFields (Document.canonicalFields manifest.stable)) =
      Document.sortFields (Document.canonicalFields manifest.stable) := by
    rw [stable, List.filter_eq_self]
    intro field member
    have among := (Document.sortFields_perm _).mem_iff.mp member
    rw [stable, Document.canonicalFields_filter fun name => !volatile.contains name] at among
    exact (List.mem_filter.mp among).2
  refine ⟨_, rfl, ?_⟩
  rw [canonical, kept, Document.canonical]
  exact idem

section Changes

variable {program : Program} {module : Glue.Module} {timestamp : String}

/-- What is hashed of a proper manifest can be written. -/
theorem isWritable_canonical (proper : (Document.object manifest).Proper) :
    manifest.canonical.isWritable :=
  Document.Proper.isWritable _ (Document.Proper.canonical _ (proper.filter _))

/-- A manifest that is given the digest of its own content. -/
def redigested (manifest : Manifest) : Manifest :=
  Document.assign "digest" (.text (Bytes.hex (Sha256.hash (Bytes.ofAscii manifest.hashedText))))
    manifest

theorem stable_redigested : manifest.redigested.stable = manifest.stable := by
  rw [stable_eq, stable_eq, erase_comm, redigested, Document.erase_assign, erase_comm]

theorem verify_redigested (proper : (Document.object manifest).Proper) :
    manifest.redigested.verify = .ok () := by
  rw [verify_eq_ok_iff, hashedText, canonical, stable_redigested]
  exact ⟨isWritable_canonical manifest proper, Document.lookup_assign⟩

/-- A manifest of a program and a module: it carries the digest of its content, of which the time
is no part. -/
structure Describes (manifest : Manifest) (program : Program) (module : Glue.Module) : Prop where
  proper : (Document.object manifest).Proper
  verifies : manifest.verify = .ok ()
  stable : manifest.stable = [("fvmgen_version", .text version), ("program", program.document),
    ("glue", module.document)]

theorem proper_undigested (program : Program) (timestamp : String)
    (proper : module.document.Proper) :
    (Document.object (undigested program module timestamp)).Proper := by
  simp [undigested, Document.Proper, Document.ProperFields, program.proper_document, proper]

theorem build_eq_ok (program : Program) (timestamp : String) (proper : module.document.Proper) :
    build program module timestamp = .ok (undigested program module timestamp).redigested := by
  rw [build, digest, if_pos (isWritable_canonical _ (proper_undigested program timestamp proper))]
  rfl

/-- With a proper module a manifest is built. -/
theorem exists_build (program : Program) (timestamp : String) (proper : module.document.Proper) :
    ∃ built, build program module timestamp = .ok built ∧ built.Describes program module := by
  have properFields := proper_undigested program timestamp proper
  refine ⟨_, build_eq_ok program timestamp proper, properFields.assign _ _,
    verify_redigested _ properFields, ?_⟩
  rw [stable_redigested]
  simp [undigested, stable, volatile]

/-- The content of a manifest without the time. -/
def timeless (manifest : Manifest) : Document :=
  .object (Document.erase "timestamp" manifest)

theorem lookup_timeless :
    Document.lookup "digest" (Document.erase "timestamp" manifest) =
      Document.lookup "digest" manifest :=
  Document.lookup_erase (by decide) manifest

/-- What is alike without the time is alike without the digest, too. -/
theorem stable_alike (proper : (Document.object a).Proper) (proper' : (Document.object b).Proper)
    (alike : a.timeless.Alike b.timeless) :
    (Document.object a.stable).Alike (.object b.stable) := by
  rw [stable_eq, stable_eq]
  exact alike.filter (proper.filter _) (proper'.filter _) fun name => name ≠ "digest"

/-- Manifests that are alike without the time verify together. -/
theorem verify_of_alike (proper : (Document.object a).Proper) (proper' : (Document.object b).Proper)
    (alike : a.timeless.Alike b.timeless) (verified : a.verify = .ok ()) : b.verify = .ok () := by
  rw [verify_eq_ok_iff] at verified ⊢
  refine ⟨isWritable_canonical b proper', ?_⟩
  have bytes := (hashed_eq_iff proper proper').mpr (stable_alike proper proper' alike)
  have carried := verified.2
  rw [← lookup_timeless] at carried
  obtain ⟨other, found, same⟩ :=
    Document.alikeFields_iff.mp alike.2 _ (Document.mem_of_lookup carried)
  rw [lookup_timeless, ← same, bytes] at found
  exact found

/-- Two manifests that verify are alike without the time, or collide, or differ in the digest and
in what it covers. -/
theorem alike_or_collide (proper : (Document.object a).Proper)
    (proper' : (Document.object b).Proper) (verified : a.verify = .ok ())
    (verified' : b.verify = .ok ()) :
    a.timeless.Alike b.timeless ∨
      Sha256.Collide (Bytes.ofAscii a.hashedText) (Bytes.ofAscii b.hashedText) ∨
      (Document.lookup "digest" a ≠ Document.lookup "digest" b ∧
        ¬ (Document.object a.stable).Alike (.object b.stable)) := by
  replace verified := ((verify_eq_ok_iff a).mp verified).2
  replace verified' := ((verify_eq_ok_iff b).mp verified').2
  by_cases content : Bytes.ofAscii a.hashedText = Bytes.ofAscii b.hashedText
  · left
    have rest := (hashed_eq_iff proper proper').mp content
    rw [stable_eq, stable_eq] at rest
    rw [← lookup_timeless] at verified verified'
    rw [← content] at verified'
    exact Document.alike_of_erase (proper.filter _) (proper'.filter _) verified verified' rest
  · right
    by_cases carried : Document.lookup "digest" a = Document.lookup "digest" b
    · left
      rw [verified, verified', Option.some.injEq, Document.text.injEq] at carried
      exact ⟨content, Bytes.hex_inj carried⟩
    · right
      exact ⟨carried, fun alike => content ((hashed_eq_iff proper proper').mpr alike)⟩

end Changes

/-- The digest pins the interface. The hashed bytes of two manifests are equal exactly if the
manifests are alike without the digest and the time, canonical fields stay as they are, and a
manifest verifies exactly if its hashed bytes can be written and it carries their digest. A built
manifest verifies, also with its fields in another order at any depth or with another time. Of all
other changes to it, those that keep the digest verify on a collision of the hash only, those of
nothing but the digest never, and those that put the digest of the changed content in verify. -/
theorem digest_pins_interface :
    (∀ a b : Manifest, (Document.object a).Proper → (Document.object b).Proper →
      (Bytes.ofAscii a.hashedText = Bytes.ofAscii b.hashedText ↔
        (Document.object a.stable).Alike (.object b.stable))) ∧
    (∀ a : Manifest, ∃ fields : Manifest,
      a.canonical = .object fields ∧ canonical fields = .object fields) ∧
    (∀ a : Manifest, a.verify = .ok () ↔ a.canonical.isWritable ∧ Document.lookup "digest" a =
      some (.text (Bytes.hex (Sha256.hash (Bytes.ofAscii a.hashedText))))) ∧
    (∀ (program : Program) (symbol timestamp : String) (module : Glue.Module),
      (Glue.lower program symbol).document.Proper ∧
      (module.document.Proper →
        ∃ built, build program module timestamp = .ok built ∧ built.verify = .ok () ∧
          ∀ changed : Manifest, (Document.object changed).Proper →
            (built.timeless.Alike changed.timeless → changed.verify = .ok ()) ∧
            (¬ built.timeless.Alike changed.timeless → changed.verify = .ok () →
              Sha256.Collide (Bytes.ofAscii built.hashedText) (Bytes.ofAscii changed.hashedText) ∨
              (Document.lookup "digest" built ≠ Document.lookup "digest" changed ∧
                ¬ (Document.object built.stable).Alike (.object changed.stable))) ∧
            changed.redigested.verify = .ok ())) := by
  refine ⟨fun a b => hashed_eq_iff, canonical_idem, verify_eq_ok_iff, ?_⟩
  intro program symbol timestamp module
  refine ⟨Glue.proper_lower program symbol, ?_⟩
  intro proper
  obtain ⟨built, made, describes⟩ := exists_build program timestamp proper
  refine ⟨built, made, describes.verifies, ?_⟩
  intro changed proper'
  refine ⟨?_, ?_, ?_⟩
  · intro alike
    exact verify_of_alike describes.proper proper' alike describes.verifies
  · intro differs verified
    exact (alike_or_collide describes.proper proper' describes.verifies verified).resolve_left
      differs
  · exact verify_redigested changed proper'

theorem digest_pins_interface_reordered :
    let first : Manifest := [("a", .int 1), ("b", .object [("c", .null), ("d", .list [])])]
    let second : Manifest :=
      [("digest", .null), ("b", .object [("d", .list []), ("c", .null)]), ("a", .int 1)]
    let third : Manifest := [("a", .bool true), ("b", .object [("c", .null), ("d", .list [])])]
    (Document.object first).Proper ∧ (Document.object second).Proper ∧
    (Document.object third).Proper ∧
    Bytes.ofAscii first.hashedText = Bytes.ofAscii second.hashedText ∧
    Bytes.ofAscii first.hashedText ≠ Bytes.ofAscii third.hashedText ∧
    ∃ built, build {} (Glue.lower {} "invoke") "then" = .ok built ∧
      verify (Document.assign "timestamp" (.text "now") built.reverse) = .ok () := by
  intro first second third
  obtain ⟨pinned, -, -, changes⟩ := digest_pins_interface
  have properFirst : (Document.object first).Proper := by
    simp [first, Document.Proper, Document.ProperFields, Document.ProperAll,
      Text.isWritable_of_lt]
  have properSecond : (Document.object second).Proper := by
    simp [second, Document.Proper, Document.ProperFields, Document.ProperAll,
      Text.isWritable_of_lt]
  have properThird : (Document.object third).Proper := by
    simp [third, Document.Proper, Document.ProperFields, Document.ProperAll]
  refine ⟨properFirst, properSecond, properThird, ?_, ?_, ?_⟩
  · rw [pinned first second properFirst properSecond]
    exact ⟨rfl, ⟨_, rfl, rfl⟩, ⟨_, rfl, rfl, ⟨_, rfl, rfl⟩, ⟨_, rfl, trivial⟩, trivial⟩, trivial⟩
  · rw [Ne, pinned first third properFirst properThird]
    rintro ⟨-, ⟨other, found, same⟩, -⟩
    cases found
    cases same
  · obtain ⟨proper, change⟩ := changes {} "invoke" "then" (Glue.lower {} "invoke")
    obtain ⟨built, made, -, change⟩ := change proper
    obtain ⟨_, made', describes⟩ := exists_build {} "then" proper
    cases made.symm.trans made'
    have properReversed := describes.proper.perm (List.reverse_perm built).symm
    refine ⟨built, made, (change _ (properReversed.assign _ _)).1 ?_⟩
    rw [timeless, timeless, Document.erase_assign]
    exact Document.alike_of_perm (describes.proper.filter _) ((List.reverse_perm built).symm.filter _)

/-- A manifest of another version with a digest of its own verifies, and there is no collision. -/
theorem redigested_version_verifies :
    ∃ built, build {} (Glue.lower {} invokeSymbol) "" = .ok built ∧
      let changed := redigested (Document.assign "fvmgen_version" (.text "0") built)
      changed.verify = .ok () ∧ ¬ built.timeless.Alike changed.timeless ∧
      ¬ Sha256.Collide (Bytes.ofAscii built.hashedText) (Bytes.ofAscii changed.hashedText) := by
  have proper := Glue.proper_lower {} invokeSymbol
  refine ⟨_, build_eq_ok {} "" proper, ?_, ?_, ?_⟩
  · have properFields := proper_undigested {} "" proper
    exact verify_redigested _ ((properFields.assign _ _).assign _ _)
  · rintro ⟨-, ⟨other, found, same⟩, -⟩
    obtain rfl := Option.some.inj found
    simp [Document.Alike, version] at same
  · rintro ⟨-, same⟩
    revert same
    decide +kernel

end Manifest

end ActorGlue
