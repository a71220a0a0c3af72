import ActorGlue.Proofs.Interface.ArgumentTypes
import ActorGlue.Proofs.Outcome
import ActorGlue.Proofs.Tree.Map

/-!
# Types inside of types

The types right inside of a type are smaller than it, so what follows from them for each type holds
of all types. Only those forms of types are looked into whose values can be decoded, and the trait
that a self type is seen as counts as a type.
-/

namespace ActorGlue

variable {σ τ : Type} {holds : Ty σ → Prop} {ty : Ty σ}

/-- The type in an argument that is a type or binds a name to one. -/
def GenericArg.type? : GenericArg σ → Option (Ty σ)
  | .type _ ty | .binding _ _ ty => some ty
  | _ => none

/-- The arguments of a segment in angle brackets. -/
def Segment.angleArgs : Segment σ → List (GenericArg σ)
  | .mk _ _ (.angle _ args) => args
  | _ => []

/-- The trait that a self type is seen as. -/
def PathHead.trait? : PathHead σ → Option (TyPath σ)
  | .selfAs _ _ trait => some trait
  | _ => none

/-- The self type of a path. -/
def PathHead.self? : PathHead σ → Option (Ty σ)
  | .self _ ty | .selfAs _ ty _ => some ty
  | _ => none

/-- The types right inside of a path. -/
def TyPath.inner : TyPath σ → List (Ty σ)
  | .mk _ head segments => head.self?.toList ++ head.trait?.toList.map .path ++
      segments.flatMap fun segment => segment.angleArgs.filterMap (·.type?)

/-- The trait that the self type of a path is seen as. -/
def Ty.trait? : Ty σ → Option (TyPath σ)
  | .path (.mk _ head _) => head.trait?
  | _ => none

/-- The types right inside of a type. -/
def Ty.inner : Ty σ → List (Ty σ)
  | .path found => found.inner
  | .array _ elem _ | .paren _ elem => [elem]
  | .tuple _ elems => elems
  | _ => []

/-- A type is inside of another one, at any depth, or is that type itself. -/
inductive Ty.Within (part : Ty σ) : Ty σ → Prop where
  | whole : Within part part
  | inner {ty next : Ty σ} (member : next ∈ ty.inner) (inside : Within part next) : Within part ty

/-- The type and all types inside of it have a property. -/
def Ty.Every (holds : Ty σ → Prop) (ty : Ty σ) : Prop :=
  ∀ part, part.Within ty → holds part

theorem Ty.every_iff : ty.Every holds ↔ holds ty ∧ ∀ next ∈ ty.inner, next.Every holds := by
  constructor
  · intro every
    exact ⟨every ty .whole, fun next member part inside => every part (.inner member inside)⟩
  · rintro ⟨own, others⟩ part inside
    cases inside with
    | whole => exact own
    | inner member inside => exact others _ member part inside

theorem TyPath.mem_inner {place : σ} {head : PathHead σ} {segments : List (Segment σ)} :
    ty ∈ (TyPath.mk place head segments).inner ↔ head.self? = some ty ∨
      (∃ trait, head.trait? = some trait ∧ Ty.path trait = ty) ∨
      ∃ segment ∈ segments, ∃ arg ∈ segment.angleArgs, arg.type? = some ty := by
  simp [TyPath.inner]

theorem TyPath.sizeOf_lt_of_mem_inner {path : TyPath σ} (member : ty ∈ path.inner) :
    sizeOf ty < sizeOf path + 1 := by
  obtain ⟨place, head, segments⟩ := path
  obtain self | ⟨trait, seen, rfl⟩ | ⟨segment, isSegment, arg, isArg, held⟩ :=
    TyPath.mem_inner.mp member
  · cases head <;> cases self <;> simp <;> omega
  · cases head <;> cases seen
    simp
    omega
  · have inList := List.sizeOf_lt_of_mem isSegment
    obtain ⟨_, ident, _ | ⟨_, args⟩ | _⟩ := segment
    · cases isArg
    · have inArgs := List.sizeOf_lt_of_mem (show arg ∈ args from isArg)
      cases arg <;> cases held <;> simp at inArgs inList ⊢ <;> omega
    · cases isArg

theorem Ty.sizeOf_lt_of_mem_inner {next : Ty σ} (member : next ∈ ty.inner) :
    sizeOf next < sizeOf ty := by
  cases ty with
  | path path =>
    have smaller := TyPath.sizeOf_lt_of_mem_inner member
    simp only [Ty.path.sizeOf_spec]
    omega
  | array place elem length | paren place elem =>
    obtain rfl := List.mem_singleton.mp member
    simp only [Ty.array.sizeOf_spec, Ty.paren.sizeOf_spec]
    omega
  | tuple place elems =>
    have smaller := List.sizeOf_lt_of_mem (show next ∈ elems from member)
    simp only [Ty.tuple.sizeOf_spec]
    omega
  | _ => cases member

/-- What holds of a type if it holds of the types right inside of it holds of all types. -/
theorem Ty.inner_induction (step : ∀ ty, (∀ next ∈ ty.inner, holds next) → holds ty) (ty : Ty σ) :
    holds ty :=
  step ty fun next _ => Ty.inner_induction step next
termination_by sizeOf ty
decreasing_by exact Ty.sizeOf_lt_of_mem_inner ‹_›

section Decodable

/-- The types inside of a decodable type are decodable, if the trait that it names is. -/
theorem Ty.Decodable.inner (decodable : ty.Decodable)
    (traits : ∀ trait ∈ ty.trait?, (Ty.path trait).Decodable) :
    ∀ next ∈ ty.inner, next.Decodable := by
  intro next member
  cases decodable with
  | array inside | paren inside =>
    obtain rfl := List.mem_singleton.mp member
    exact inside
  | tuple inside => exact inside next member
  | @path place head segments self inside =>
    have member : next ∈ (TyPath.mk place head segments).inner := member
    obtain found | ⟨trait, seen, rfl⟩ | ⟨segment, isSegment, arg, isArg, held⟩ :=
      TyPath.mem_inner.mp member
    · cases self <;> cases found <;> assumption
    · exact traits trait seen
    · cases inside segment isSegment with
      | plain => cases isArg
      | angle inside => cases inside arg isArg <;> cases held <;> assumption

/-- If every trait that is named in a decodable type is decodable, so is every type in it. -/
theorem Ty.Decodable.every (decodable : ty.Decodable)
    (traits : ty.Every fun part => ∀ trait ∈ part.trait?, (Ty.path trait).Decodable) :
    ty.Every Ty.Decodable := by
  intro part inside
  induction inside with
  | whole => exact decodable
  | inner member _ ih =>
    obtain ⟨own, others⟩ := Ty.every_iff.mp traits
    exact ih (decodable.inner own _ member) (others _ member)

end Decodable

/-- Places do not matter for the check. -/
theorem Ty.check_map_eq_ok {f : σ → τ} : (ty.map f).check = .ok () ↔ ty.check = .ok () := by
  rw [Ty.check_map, mapError_eq_ok]

section Map

variable (f : σ → τ)

theorem Ty.shape_map (ty : Ty σ) : (ty.map f).shape = ty.shape :=
  Ty.map_map f _ ty

theorem GenericArg.type?_map (arg : GenericArg σ) :
    (arg.map f).type? = arg.type?.map (Ty.map f) := by
  cases arg <;> rfl

theorem Segment.angleArgs_map (segment : Segment σ) :
    (segment.map f).angleArgs = segment.angleArgs.map (GenericArg.map f) := by
  obtain ⟨_, _, _ | _ | _⟩ := segment <;>
    simp [Segment.map, SegmentArgs.map, Segment.angleArgs]

theorem PathHead.self?_map (head : PathHead σ) :
    (head.map f).self? = head.self?.map (Ty.map f) := by
  cases head <;> rfl

theorem PathHead.trait?_map (head : PathHead σ) :
    (head.map f).trait? = head.trait?.map (TyPath.map f) := by
  cases head <;> rfl

theorem Ty.trait?_map (ty : Ty σ) : (ty.map f).trait? = ty.trait?.map (TyPath.map f) := by
  cases ty with
  | path found =>
    obtain ⟨place, head, segments⟩ := found
    exact PathHead.trait?_map f head
  | _ => rfl

theorem TyPath.inner_map (path : TyPath σ) : (path.map f).inner = path.inner.map (Ty.map f) := by
  obtain ⟨place, head, segments⟩ := path
  simp only [TyPath.map, TyPath.inner, PathHead.self?_map, PathHead.trait?_map,
    Segment.mapAll_eq_map, List.map_append, List.map_flatMap, List.flatMap_map,
    Segment.angleArgs_map, List.filterMap_map, List.map_filterMap, Option.toList_map, List.map_map,
    Function.comp_def, GenericArg.type?_map]
  rfl

theorem Ty.inner_map (ty : Ty σ) : (ty.map f).inner = ty.inner.map (Ty.map f) := by
  cases ty with
  | path found => exact TyPath.inner_map f found
  | tuple place elems => exact Ty.mapAll_eq_map f elems
  | _ => rfl

theorem Ty.Within.map {part : Ty σ} (within : part.Within ty) : (part.map f).Within (ty.map f) := by
  induction within with
  | whole => exact .whole
  | @inner ty next member _ ih =>
    have mapped : next.map f ∈ (ty.map f).inner := by
      rw [Ty.inner_map]
      exact List.mem_map_of_mem member
    exact .inner mapped ih

end Map

end ActorGlue
