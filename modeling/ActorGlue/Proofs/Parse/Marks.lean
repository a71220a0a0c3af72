import ActorGlue.Proofs.Parse.Contents
import ActorGlue.Proofs.Parse.Frame

/-!
# Delimited arguments

The arguments of an attribute in delimiters are a group of the lexemes it was read from. Extents
count the lexemes ahead, so this holds as well in front of everything that was read before.
-/

namespace ActorGlue

open Parse

/-- The extent covers a delimited group of the lexemes. -/
def Delimited (lexemes : List Lexeme) (extent : Extent) : Prop :=
  ∃ before opener inside closer after,
    lexemes = before ++ opener :: (inside ++ closer :: after) ∧
      opener.closer?.isSome ∧ closer.isCloser ∧
      extent = ⟨inside.length + 2 + after.length, after.length⟩

/-- The arguments of an attribute in delimiters are a group of the lexemes. -/
def Attribute.Marked (lexemes : List Lexeme) (a : Attribute Extent) : Prop :=
  ∀ group, a.input = .list group → Delimited lexemes group

def Member.attributes {σ : Type} : Member σ → List (Attribute σ)
  | .method m => m.attributes
  | .other m => m.attributes

def Item.members {σ : Type} : Item σ → List (Member σ)
  | .impl item => item.members
  | _ => []

/-- All attributes of an item and of its members are marked. -/
structure Item.Marked (lexemes : List Lexeme) (item : Item Extent) : Prop where
  own : ∀ a ∈ item.attributes, a.Marked lexemes
  members : ∀ member ∈ item.members, ∀ a ∈ member.attributes, a.Marked lexemes

section Suffixes

variable {left ahead : List Lexeme}

theorem Delimited.mono {extent : Extent} (h : Delimited left extent) (behind : left <:+ ahead) :
    Delimited ahead extent := by
  obtain ⟨front, rfl⟩ := behind
  obtain ⟨before, opener, inside, closer, after, rfl, opens, closes, same⟩ := h
  exact ⟨front ++ before, opener, inside, closer, after, by simp, opens, closes, same⟩

theorem Attribute.Marked.mono {a : Attribute Extent} (h : a.Marked left) (behind : left <:+ ahead) :
    a.Marked ahead :=
  fun group found => (h group found).mono behind

end Suffixes

namespace Parse

variable {all : List Lexeme}

theorem attributeInput_yields : Yields all attributeInput fun input =>
    ∀ group, input = .list group → Delimited all group := by
  refine ⟨fun {ahead} behind => .mark (.peek (.ite (fun _ => ?_) fun _ => ?_))⟩
  · have taken : Reads ahead group fun left found => _ := ⟨group_eq_ok⟩
    refine taken.follow fun left found _ same => .extentFrom (.pure ?_)
    rintro _ ⟨⟩
    obtain ⟨rfl, -, opener, inside, closer, rfl, opened, closed⟩ := same
    refine Delimited.mono ⟨[], opener, inside, closer, left, by simp, opened, closed, ?_⟩ behind
    simp only [List.cons_append, List.append_assoc, List.length_cons, List.length_append,
      List.length_nil, Extent.mk.injEq, and_true]
    omega
  · refine .eat (fun rest _ => .mark (.past fun _ _ _ => .extentFrom (.pure ?_))) (.pure ?_)
    · rintro _ ⟨⟩
    · rintro _ ⟨⟩

theorem oneAttribute_yields : Yields all oneAttribute (·.Marked all) := by
  rw [oneAttribute]
  have front : Yields all attributeFront fun found =>
      ∀ group, found.2.2 = .list group → Delimited all group :=
    .behind fun inner => .behind fun _ => .behind fun words =>
      attributeInput_yields.bind fun input marked => .pure marked
  refine .behind fun before => .behind fun _ => front.bind fun found marked => ?_
  exact .behind fun _ => .behind fun _ => .pure marked

/-- The attributes of an item that is read, and those of its members, are marked. -/
theorem item_marked : Yields all item (·.Marked all) := by
  let known : Known := ⟨(·.Marked all), fun _ => True, fun _ => True⟩
  have holds : known.Of all :=
    ⟨oneAttribute_yields, fun _ => .any, fun _ => .mono .any (by simp [known]), fun _ => .any⟩
  refine (item_yields holds).mono fun value inner => ?_
  cases value with
  | struct found => exact ⟨inner.1, List.forall_mem_nil _⟩
  | other found => exact ⟨inner, List.forall_mem_nil _⟩
  | impl found =>
    refine ⟨inner.1, fun member among => ?_⟩
    have own := inner.2.2 member among
    cases member with
    | method found => exact own.1
    | other found => exact own

end Parse

end ActorGlue
