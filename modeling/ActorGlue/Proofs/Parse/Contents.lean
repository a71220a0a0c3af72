import ActorGlue.Proofs.Parse.ImplWindow
import ActorGlue.Proofs.Parse.Reads

/-!
# What items are made of

What holds of all attributes, names and types that can be read, holds of those in an item. The
parsers of items are gone through once, for all such properties.
-/

namespace ActorGlue

open Parse

/-- What is known of the attributes, of the names and of the types in an item. -/
structure Known where
  mark : Attribute Extent → Prop
  name : String → Prop
  ty : Ty Extent → Prop

namespace Known

variable (known : Known)

abbrev marks (found : List (Attribute Extent)) : Prop :=
  ∀ a ∈ found, known.mark a

def pattern : Pattern Extent → Prop
  | .ident _ name _ _ _ => known.name name
  | .other _ _ => True

def input : MethodInput Extent → Prop
  | .receiver found => known.marks found.attributes
  | .typed found =>
      known.marks found.attributes ∧ known.pattern found.pattern ∧ known.ty found.ty

def member : Member Extent → Prop
  | .method found =>
      known.marks found.attributes ∧ known.name found.name ∧
        ∀ input ∈ found.inputs, known.input input
  | .other found => known.marks found.attributes

def item : Item Extent → Prop
  | .struct found =>
      known.marks found.attributes ∧ known.name found.name ∧
        ∀ field ∈ found.fields, known.marks field.attributes
  | .impl found =>
      known.marks found.attributes ∧ known.ty found.selfTy ∧
        ∀ member ∈ found.members, known.member member
  | .other found => known.marks found.attributes

/-- It holds of all attributes, names and types that are read from the end of the lexemes. -/
structure Of (all : List Lexeme) : Prop where
  mark : Yields all oneAttribute known.mark
  word : ∀ wanted, Yields all (expectIdent wanted) known.name
  next : ∀ distance, Yields all (peekAt distance) fun found =>
    ∀ lexeme ∈ found, lexeme.kind = .ident → known.name lexeme.text
  ty : ∀ sum, Yields all (Parse.ty sum) known.ty

end Known

namespace Parse

section Contents

variable {all : List Lexeme} {known : Known} {before : Nat} {attributes : List (Attribute Extent)}
  {visibility : Visibility Extent} (holds : known.Of all)

include holds

theorem attributes_yields (innerOnly : Bool) :
    Yields all (Parse.attributes innerOnly) known.marks := by
  refine .many (.behind fun _ => .behind fun _ => .ite ?_ (.pure (List.forall_mem_nil _)))
  exact holds.mark.bind fun a known => .pure (List.forall_mem_singleton.mpr known)

theorem field_yields {named : Bool} :
    Yields all (field named) fun field => known.marks field.attributes := by
  refine .behind fun _ => (attributes_yields holds false).bind fun found own => ?_
  exact .behind fun _ => .behind fun _ => .behind fun _ => .behind fun _ => .pure own

theorem structBody_yields {generics : Generics Extent} : Yields all (structBody generics) fun body =>
    ∀ field ∈ body.2.1, known.marks field.attributes := by
  refine .behind fun _ => .ite ?_ (.behind fun _ => .ite ?_ (.pure (List.forall_mem_nil _)))
  · exact (Yields.separated (field_yields holds)).bind fun fields inner => .pure inner
  · refine (Yields.separated (field_yields holds)).bind fun fields inner => ?_
    exact .behind fun _ => .behind fun _ => .pure inner

theorem structItem_yields (own : known.marks attributes) :
    Yields all (structItem before attributes visibility) fun found =>
      known.item (.struct found) := by
  have front : Yields all structFront fun front => known.name front.1 ∧
      ∀ field ∈ front.2.2.1, known.marks field.attributes := by
    refine .behind fun _ => (holds.word _).bind fun name word => .behind fun _ => ?_
    exact .behind fun _ => (structBody_yields holds).bind fun body inner => .pure ⟨word, inner⟩
  rw [structItem]
  exact front.bind fun front inner => .behind fun _ => .behind fun _ => .pure ⟨own, inner⟩

theorem pattern_yields : Yields all pattern known.pattern := by
  have other : ∀ before, Yields all (otherPattern before) known.pattern := by
    intro before
    exact .behind fun _ => .ite .refuse (.behind fun _ => .pure trivial)
  unfold pattern
  refine .behind fun before => .behind fun byRef => .behind fun mutable => ?_
  refine (holds.next _).bind fun found word => .behind fun next => ?_
  cases found with
  | none => exact other before
  | some lexeme =>
    refine .branch (fun names => .behind fun _ => .behind fun _ => ?_) (other before)
    simp only [Bool.and_eq_true, decide_eq_true_eq] at names
    refine .ite (.behind fun _ => .behind fun _ => ?_) (.behind fun _ => ?_)
    · exact .behind fun _ => .pure (word lexeme rfl names.1.1)
    · exact .behind fun _ => .pure (word lexeme rfl names.1.1)

theorem plainInput_yields {start : Nat} {first : Lexeme} (own : known.marks attributes) :
    Yields all (plainInput start before attributes first) known.input := by
  refine .behind fun _ => .behind fun _ => .ite ?_ ?_
  · refine .behind fun _ => .behind fun _ => .ite ?_ ?_
    · exact .behind fun _ => .behind fun _ => .behind fun _ => .pure own
    · exact .behind fun _ => .behind fun _ => .pure own
  · refine (pattern_yields holds).bind fun pattern named => .behind fun _ => ?_
    exact (holds.ty true).bind fun ty typed => .behind fun _ => .pure ⟨own, named, typed⟩

theorem methodInput_yields : Yields all methodInput known.input := by
  rw [methodInput]
  refine .behind fun start => (attributes_yields holds false).bind fun found own => ?_
  refine .behind fun before => .behind fun first => ?_
  cases first with
  | none => exact .refuse
  | some first =>
    refine .ite ?_ (plainInput_yields holds own)
    refine .behind fun _ => .behind fun _ => .behind fun _ => .ite ?_ (plainInput_yields holds own)
    exact .behind fun _ => .behind fun _ => .pure own

theorem method_yields {qualifiers : List String} (own : known.marks attributes) :
    Yields all (method before attributes visibility qualifiers) fun found =>
      known.member (.method found) := by
  rw [Parse.method]
  refine .behind fun _ => (holds.word _).bind fun name word => .behind fun _ => .behind fun _ => ?_
  refine (Yields.separated (methodInput_yields holds)).bind fun inputs inner => ?_
  iterate 5 refine .behind fun _ => ?_
  exact .pure ⟨own, word, inner⟩

theorem member_yields : Yields all member known.member := by
  rw [Parse.member]
  refine .behind fun _ => (attributes_yields holds false).bind fun found own => ?_
  refine .behind fun _ => .behind fun _ => .behind fun _ => .behind fun _ => .ite ?_ ?_
  · refine .behind fun _ => ?_
    exact (method_yields holds own).bind fun found inner => .pure inner
  · exact .behind fun _ => .behind fun _ => .pure own

theorem members_yields : Yields all members fun found => ∀ value ∈ found, known.member value := by
  refine .many (.behind fun _ => .ite ?_ (.behind fun _ => .ite .refuse ?_))
  · exact .pure (List.forall_mem_nil _)
  · refine (member_yields holds).bind fun value inner => ?_
    exact .pure (List.forall_mem_singleton.mpr inner)

theorem implTypes_yields {negative : Bool} :
    Yields all (implTypes negative) fun target => known.ty target.2 := by
  refine (holds.ty false).bind fun first typed => .behind fun _ => .ite ?_ (.ite .refuse (.pure typed))
  cases first with
  | path path => exact (holds.ty false).bind fun ty typed => .pure typed
  | _ => exact .throw

theorem implItem_yields (own : known.marks attributes) :
    Yields all (implItem before attributes) fun found => known.item (.impl found) := by
  have body : Yields all implBody fun found => ∀ value ∈ found, known.member value :=
    .behind fun _ => .behind fun _ => members_yields holds
  have front : Yields all implFront fun front => known.ty front.2.2.1.2 ∧
      ∀ value ∈ front.2.2.2.2, known.member value := by
    iterate 7 refine .behind fun _ => ?_
    refine (implTypes_yields holds).bind fun target typed => .behind fun _ => ?_
    exact body.bind fun members inner => .pure ⟨typed, inner⟩
  rw [implItem]
  exact front.bind fun front inner => .behind fun _ => .behind fun _ => .pure ⟨own, inner⟩

omit holds in
theorem otherItem_yields (own : known.marks attributes) :
    Yields all (otherItem before attributes visibility) fun found => known.item (.other found) := by
  refine ⟨fun behind => ⟨fun h => ?_⟩⟩
  obtain ⟨passed, keyword, rest, -, h⟩ := otherItem_eq_ok.mp h
  have kept : Yields all (otherRest before attributes visibility passed keyword rest) fun found =>
      known.item (.other found) := by
    refine .ite ?_ (.ite ?_ .throw)
    · exact .behind fun _ => .behind fun _ => .behind fun _ => .pure own
    · exact .behind fun _ => .behind fun _ => .pure own
  exact (kept.reads behind).gives h

/-- What holds of all attributes, names and types holds of those in an item that is read. -/
theorem item_yields : Yields all item known.item := by
  unfold item
  refine .behind fun before => .ite .refuse ?_
  refine (attributes_yields holds false).bind fun found own => .behind fun _ => .behind fun rest => ?_
  cases rest with
  | nil => exact .refuse
  | cons lexeme rest =>
    refine .ite ?_ (.ite ?_ ?_)
    · exact (structItem_yields holds own).bind fun value inner => .pure inner
    · exact (implItem_yields holds own).bind fun value inner => .pure inner
    · exact (otherItem_yields own).bind fun value inner => .pure inner

end Contents

end Parse

end ActorGlue
