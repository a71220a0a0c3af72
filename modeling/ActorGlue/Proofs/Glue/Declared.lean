import ActorGlue.Proofs.Expansion.Declarations
import ActorGlue.Proofs.Glue.Dispatch
import ActorGlue.Proofs.Glue.Types
import ActorGlue.Proofs.Parse.Sound

/-!
# Declared actors can be written

What an implementation block declares is named by words, and the types of its arguments have been
checked. So the actor can be written, unless an argument of an exported method names a self type as
some trait.
-/

namespace ActorGlue

section Traits

variable {σ : Type}

/-- The type of the argument names a trait. -/
def MethodInput.namesTrait : MethodInput σ → Bool
  | .receiver _ => false
  | .typed input => input.ty.namesTrait

/-- An argument of an exported method names a trait. -/
def Member.exportsTrait : Member Span → Bool
  | .method found => found.exportAttribute?.isSome && found.inputs.any (·.namesTrait)
  | .other _ => false

/-- An argument type of an exported method contains a path that names a self type as some trait. -/
def Item.exportsTrait : Item Span → Bool
  | .impl found => found.members.any (·.exportsTrait)
  | _ => false

end Traits

theorem exists_of_mapM_ok {α β ε : Type} {f : α → Except ε β} {items : List α} {found : List β}
    (h : items.mapM f = .ok found) : ∀ y ∈ found, ∃ x ∈ items, f x = .ok y := by
  induction items generalizing found with
  | nil =>
    cases h
    simp
  | cons item rest ih =>
    rw [List.mapM_cons] at h
    obtain ⟨value, first, h⟩ := exists_of_bind_ok h
    obtain ⟨values, others, h⟩ := exists_of_bind_ok h
    cases h
    refine List.forall_mem_cons.mpr ⟨⟨item, by simp, first⟩, fun y member => ?_⟩
    obtain ⟨x, among, same⟩ := ih others y member
    exact ⟨x, List.mem_cons_of_mem _ among, same⟩

section Arguments

variable {place : Extent → Span} {dispatch : Dispatch} {marks : Annotation} {entry : EntryPoint}

theorem MethodInput.argument_written {input : MethodInput Extent} (sound : Known.sound.input input)
    (plain : (input.map place).namesTrait = false) {argument : Argument}
    (h : (input.map place).argument = .ok argument) : argument.Written := by
  cases input with
  | receiver self => cases h
  | typed input =>
    obtain ⟨_, _, pattern, ty⟩ := input
    obtain ⟨-, named, sound⟩ := sound
    cases pattern with
    | other _ _ => cases h
    | ident _ name mutable _ _ =>
      simp only [MethodInput.map, TypedInput.map, Pattern.map, MethodInput.argument,
        Ty.descriptor] at h
      cases checked : (ty.map place).check with
      | error rejection =>
        rw [checked] at h
        cases h
      | ok done =>
        rw [checked] at h
        cases h
        have decodable := ty.judges_check.passes.mp (Ty.check_map_eq_ok.mp checked)
        refine ⟨named, ?_⟩
        rw [Ty.render_map]
        refine Ty.whole_render sound decodable fun part within => ?_
        simpa [Ty.trait?_map] using Ty.every_of_plain plain (within.map place)

theorem Method.arguments_subset (method : Method Span) : method.arguments ⊆ method.inputs := by
  unfold Method.arguments
  split
  · rename_i same
    rw [same]
    exact List.subset_cons_self _ _
  · exact List.Subset.refl _

theorem Method.entryPoint_eq_ok {method : Method Span}
    (h : method.entryPoint dispatch marks = .ok entry) :
    entry.method = method.name ∧ method.arguments.mapM (·.argument) = .ok entry.arguments := by
  unfold Method.entryPoint at h
  obtain ⟨_, -, h⟩ := exists_of_bind_ok h
  split_ifs at h
  · dsimp only at h
    cases bound : marks.binding? with
    | none =>
      rw [bound] at h
      cases h
    | some binding =>
      rw [bound] at h
      obtain ⟨arguments, found, h⟩ := exists_of_bind_ok h
      cases binding with
      | number number =>
        cases h
        exact ⟨rfl, found⟩
      | word text => cases h
  · cases h

theorem Method.entryPoint_written {method : Method Extent}
    (sound : Known.sound.member (.method method))
    (plain : (method.map place).inputs.any (·.namesTrait) = false)
    (h : (method.map place).entryPoint dispatch marks = .ok entry) : entry.Written := by
  obtain ⟨named, found⟩ := Method.entryPoint_eq_ok h
  refine ⟨named ▸ sound.2.1, fun argument member => ?_⟩
  obtain ⟨input, among, same⟩ := exists_of_mapM_ok found argument member
  have among := Method.arguments_subset _ among
  obtain ⟨own, there, rfl⟩ := List.mem_map.mp (show input ∈ method.inputs.map (·.map place) from among)
  refine MethodInput.argument_written (sound.2.2 own there) ?_ same
  simpa using List.any_eq_false.mp plain _ among

end Arguments

section Exports

variable {place : Extent → Span} {text : List Char} {dispatch : Dispatch}

/-- Every entry point is that of an exported method. -/
theorem Member.exports_written {members : List (Member Extent)}
    (sound : ∀ member ∈ members, Known.sound.member member)
    (plain : ∀ member ∈ members, (member.map place).exportsTrait = false)
    {entries : List EntryPoint} {failures : List Diagnostic}
    (h : Member.exports text dispatch (members.map (·.map place)) = .ok (entries, failures)) :
    ∀ entry ∈ entries, entry.Written := by
  induction members generalizing entries failures with
  | nil =>
    cases h
    simp
  | cons member rest ih =>
    obtain ⟨here, behind⟩ := List.forall_mem_cons.mp sound
    obtain ⟨free, others⟩ := List.forall_mem_cons.mp plain
    cases member with
    | other found => exact ih behind others h
    | method found =>
      rw [List.map_cons, Member.map, Member.exports_method] at h
      cases exported : (found.map place).exportAttribute? with
      | none =>
        rw [exported] at h
        exact ih behind others h
      | some a =>
        rw [exported] at h
        obtain ⟨result, made, h⟩ := exists_of_bind_ok h
        obtain ⟨⟨more, failed⟩, later, h⟩ := exists_of_bind_ok h
        have rest := ih behind others later
        cases result with
        | error failure =>
          cases h
          exact rest
        | ok entry =>
          cases h
          refine List.forall_mem_cons.mpr ⟨?_, rest⟩
          simp only [Member.map, Member.exportsTrait, exported, Option.isSome_some,
            Bool.true_and] at free
          unfold Method.exported at made
          split at made
          · exact Method.entryPoint_written here free (Except.ok.inj made)
          · cases made
          · cases made

theorem Ty.isWord_of_plainName {ty : Ty Extent} (sound : ty.Sound) {name : String}
    (named : ty.plainName? = some name) : IsWord name := by
  have regular := sound ty .whole
  unfold Ty.plainName? at named
  split at named
  · cases named
    exact (regular.2.2 _ List.mem_cons_self).1
  · cases named

/-- The actor that an implementation block declares can be written. -/
theorem ImplItem.actor_written {block : ImplItem Extent} (sound : Known.sound.item (.impl block))
    (plain : (Item.impl (block.map place)).exportsTrait = false) {marks : Annotation}
    {actor : Actor} (h : (block.map place).actor text marks = .ok actor) : actor.Written := by
  unfold ImplItem.actor at h
  obtain ⟨_, -, h⟩ := exists_of_bind_ok h
  obtain ⟨name, named, h⟩ := exists_of_bind_ok h
  obtain ⟨⟨entries, failures⟩, exported, h⟩ := exists_of_bind_ok h
  dsimp only at h
  split at h
  · cases h
  · cases h
    have word : IsWord name := by
      rw [mapError_eq_ok, ImplItem.typeName_eq] at named
      split at named
      · rename_i found
        cases named
        rw [ImplItem.map, Ty.plainName?_map] at found
        exact Ty.isWord_of_plainName sound.2.1 found
      · cases named
    refine ⟨word, Member.exports_written sound.2.2 ?_ (mapError_eq_ok.mp exported)⟩
    simpa [Item.exportsTrait, ImplItem.map] using plain

end Exports

end ActorGlue
