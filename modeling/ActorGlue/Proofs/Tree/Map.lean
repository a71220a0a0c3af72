import ActorGlue.Interface.ArgumentType
import ActorGlue.Tree.Item

/-!
# Changing the places of a tree

Mapping the places of a tree twice is mapping them once, and neither the text of a type nor the
check of its values sees them: a refusal only carries its place along.
-/

namespace ActorGlue

section Types

variable {σ τ υ : Type} (f : σ → τ) (g : τ → υ)

mutual

theorem Ty.map_map : (ty : Ty σ) → (ty.map f).map g = ty.map (g ∘ f)
  | .path p | .invocation _ p _ => by simp [Ty.map, TyPath.map_map p]
  | .array _ elem _ | .slice _ elem | .paren _ elem | .reference _ elem _ _ | .pointer _ elem _
  | .group _ elem => by simp [Ty.map, Ty.map_map elem]
  | .tuple _ elems => by simp [Ty.map, Ty.mapAll_mapAll elems]
  | .implTrait _ bounds | .traitObject _ bounds _ => by simp [Ty.map, Bound.mapAll_mapAll bounds]
  | .bareFn _ inputs output _ => by
    simp [Ty.map, Ty.mapAll_mapAll inputs, Ty.map?_map? output]
  | .never _ | .infer _ | .verbatim _ _ => by simp [Ty.map]

theorem Ty.mapAll_mapAll :
    (types : List (Ty σ)) → Ty.mapAll g (Ty.mapAll f types) = Ty.mapAll (g ∘ f) types
  | [] => rfl
  | ty :: rest => by simp [Ty.mapAll, Ty.map_map ty, Ty.mapAll_mapAll rest]

theorem Ty.map?_map? :
    (ty : Option (Ty σ)) → Ty.map? g (Ty.map? f ty) = Ty.map? (g ∘ f) ty
  | none => rfl
  | some ty => by simp [Ty.map?, Ty.map_map ty]

theorem TyPath.map_map : (path : TyPath σ) → (path.map f).map g = path.map (g ∘ f)
  | .mk _ head segments => by
    simp [TyPath.map, PathHead.map_map head, Segment.mapAll_mapAll segments]

theorem PathHead.map_map : (head : PathHead σ) → (head.map f).map g = head.map (g ∘ f)
  | .relative => rfl
  | .rooted => rfl
  | .self _ ty => by simp [PathHead.map, Ty.map_map ty]
  | .selfAs _ ty trait => by simp [PathHead.map, Ty.map_map ty, TyPath.map_map trait]

theorem Segment.map_map : (segment : Segment σ) → (segment.map f).map g = segment.map (g ∘ f)
  | .mk _ _ args => by simp [Segment.map, SegmentArgs.map_map args]

theorem Segment.mapAll_mapAll : (segments : List (Segment σ)) →
    Segment.mapAll g (Segment.mapAll f segments) = Segment.mapAll (g ∘ f) segments
  | [] => rfl
  | segment :: rest => by
    simp [Segment.mapAll, Segment.map_map segment, Segment.mapAll_mapAll rest]

theorem SegmentArgs.map_map : (args : SegmentArgs σ) → (args.map f).map g = args.map (g ∘ f)
  | .absent => rfl
  | .angle _ args => by simp [SegmentArgs.map, GenericArg.mapAll_mapAll args]
  | .call _ inputs output => by
    simp [SegmentArgs.map, Ty.mapAll_mapAll inputs, Ty.map?_map? output]

theorem GenericArg.map_map : (arg : GenericArg σ) → (arg.map f).map g = arg.map (g ∘ f)
  | .lifetime _ _ => rfl
  | .type _ ty | .binding _ _ ty => by simp [GenericArg.map, Ty.map_map ty]
  | .constraint _ _ bounds => by simp [GenericArg.map, Bound.mapAll_mapAll bounds]
  | .const _ _ => rfl

theorem GenericArg.mapAll_mapAll : (args : List (GenericArg σ)) →
    GenericArg.mapAll g (GenericArg.mapAll f args) = GenericArg.mapAll (g ∘ f) args
  | [] => rfl
  | arg :: rest => by
    simp [GenericArg.mapAll, GenericArg.map_map arg, GenericArg.mapAll_mapAll rest]

theorem Bound.map_map : (bound : Bound σ) → (bound.map f).map g = bound.map (g ∘ f)
  | .trait _ path _ _ => by simp [Bound.map, TyPath.map_map path]
  | .lifetime _ _ => rfl

theorem Bound.mapAll_mapAll : (bounds : List (Bound σ)) →
    Bound.mapAll g (Bound.mapAll f bounds) = Bound.mapAll (g ∘ f) bounds
  | [] => rfl
  | bound :: rest => by simp [Bound.mapAll, Bound.map_map bound, Bound.mapAll_mapAll rest]

end

mutual

@[simp]
theorem Ty.render_map : (ty : Ty σ) → (ty.map f).render = ty.render
  | .path p => by simp [Ty.map, Ty.render, TyPath.render_map p]
  | .array _ elem _ | .slice _ elem | .paren _ elem | .reference _ elem _ _ | .pointer _ elem _
  | .group _ elem => by simp [Ty.map, Ty.render, Ty.render_map elem]
  | .tuple _ [] => by simp [Ty.map, Ty.mapAll, Ty.render, Ty.renderAll]
  | .tuple _ [elem] => by simp [Ty.map, Ty.mapAll, Ty.render, Ty.render_map elem]
  | .tuple _ (first :: second :: rest) => by
    simp [Ty.map, Ty.mapAll, Ty.render, Ty.renderAll, Ty.render_map first,
      Ty.render_map second, Ty.renderAll_mapAll rest]
  | .implTrait _ bounds | .traitObject _ bounds _ => by
    simp [Ty.map, Ty.render, Bound.renderAll_mapAll bounds]
  | .never _ | .infer _ | .bareFn .. | .invocation .. | .verbatim .. => by simp [Ty.map, Ty.render]

theorem Ty.renderAll_mapAll :
    (types : List (Ty σ)) → Ty.renderAll (Ty.mapAll f types) = Ty.renderAll types
  | [] => rfl
  | ty :: rest => by
    simp [Ty.mapAll, Ty.renderAll, Ty.render_map ty, Ty.renderAll_mapAll rest]

theorem Ty.renderOutput_map? :
    (ty : Option (Ty σ)) → Ty.renderOutput (Ty.map? f ty) = Ty.renderOutput ty
  | none => rfl
  | some ty => by simp [Ty.map?, Ty.renderOutput, Ty.render_map ty]

@[simp]
theorem TyPath.render_map : (path : TyPath σ) → (path.map f).render = path.render
  | .mk _ head segments => by
    simp [TyPath.map, TyPath.render, PathHead.render_map head,
      Segment.renderAll_mapAll segments]

theorem PathHead.render_map : (head : PathHead σ) → (head.map f).render = head.render
  | .relative => rfl
  | .rooted => rfl
  | .self _ ty => by simp [PathHead.map, PathHead.render, Ty.render_map ty]
  | .selfAs _ ty trait => by
    simp [PathHead.map, PathHead.render, Ty.render_map ty, TyPath.render_map trait]

theorem Segment.render_map : (segment : Segment σ) → (segment.map f).render = segment.render
  | .mk _ _ args => by simp [Segment.map, Segment.render, SegmentArgs.render_map args]

theorem Segment.renderAll_mapAll : (segments : List (Segment σ)) →
    Segment.renderAll (Segment.mapAll f segments) = Segment.renderAll segments
  | [] => rfl
  | segment :: rest => by
    simp [Segment.mapAll, Segment.renderAll, Segment.render_map segment,
      Segment.renderAll_mapAll rest]

theorem SegmentArgs.render_map : (args : SegmentArgs σ) → (args.map f).render = args.render
  | .absent => rfl
  | .angle _ args => by
    simp [SegmentArgs.map, SegmentArgs.render, GenericArg.renderAll_mapAll args]
  | .call _ inputs output => by
    simp [SegmentArgs.map, SegmentArgs.render, Ty.renderAll_mapAll inputs,
      Ty.renderOutput_map? output]

theorem GenericArg.render_map : (arg : GenericArg σ) → (arg.map f).render = arg.render
  | .lifetime _ _ => rfl
  | .type _ ty | .binding _ _ ty => by simp [GenericArg.map, GenericArg.render, Ty.render_map ty]
  | .constraint _ _ bounds => by
    simp [GenericArg.map, GenericArg.render, Bound.renderAll_mapAll bounds]
  | .const _ _ => rfl

theorem GenericArg.renderAll_mapAll : (args : List (GenericArg σ)) →
    GenericArg.renderAll (GenericArg.mapAll f args) = GenericArg.renderAll args
  | [] => rfl
  | arg :: rest => by
    simp [GenericArg.mapAll, GenericArg.renderAll, GenericArg.render_map arg,
      GenericArg.renderAll_mapAll rest]

theorem Bound.render_map : (bound : Bound σ) → (bound.map f).render = bound.render
  | .trait _ path _ _ => by simp [Bound.map, Bound.render, TyPath.render_map path]
  | .lifetime _ _ => rfl

theorem Bound.renderAll_mapAll : (bounds : List (Bound σ)) →
    Bound.renderAll (Bound.mapAll f bounds) = Bound.renderAll bounds
  | [] => rfl
  | bound :: rest => by
    simp [Bound.mapAll, Bound.renderAll, Bound.render_map bound, Bound.renderAll_mapAll rest]

end

@[simp]
theorem TyPath.place_map (path : TyPath σ) : (path.map f).place = f path.place := by
  cases path
  rw [TyPath.map]
  rfl

@[simp]
theorem Ty.place_map (ty : Ty σ) : (ty.map f).place = f ty.place := by
  cases ty with
  | path path => rw [Ty.map]; exact TyPath.place_map f path
  | _ => rw [Ty.map]; rfl

/-- The rejection with its place mapped. -/
def TypeRejection.map (rejection : TypeRejection σ) : TypeRejection τ :=
  ⟨rejection.fault, f rejection.place⟩

theorem Ty.refusedCategory?_map (ty : Ty σ) :
    (ty.map f).refusedCategory? = ty.refusedCategory? := by
  cases ty <;> simp [Ty.map, Ty.refusedCategory?]

theorem Ty.refuse_map (ty : Ty σ) : (ty.map f).refuse = ty.refuse.map f := by
  simp only [Ty.refuse, Ty.refusedCategory?_map, Ty.render_map, Ty.place_map]
  cases ty.refusedCategory? <;> rfl

theorem TyPath.refuse_map (path : TyPath σ) (category : String) :
    (path.map f).refuse category = (path.refuse category).map f := by
  simp only [TyPath.refuse, TyPath.render_map, TyPath.place_map, TypeRejection.map]

theorem mapError_error {ε ε' α : Type} (h : ε → ε') (failure : ε) :
    (Except.error failure : Except ε α).mapError h = .error (h failure) := rfl

theorem mapError_bind {ε ε' : Type} (h : ε → ε') (first second : Except ε Unit) :
    (first >>= fun _ => second).mapError h = first.mapError h >>= fun _ => second.mapError h := by
  cases first <;> rfl

/-- A type that is refused as a whole is refused at its own place. -/
theorem Ty.check_map_of_refuse {ty : Ty σ} (refused : ty.check = .error ty.refuse)
    (mapped : (ty.map f).check = .error (ty.map f).refuse) :
    (ty.map f).check = ty.check.mapError (TypeRejection.map f) := by
  rw [refused, mapped, Ty.refuse_map, mapError_error]

mutual

theorem Ty.check_map : (ty : Ty σ) → (ty.map f).check = ty.check.mapError (TypeRejection.map f)
  | .array _ elem _ | .paren _ elem => by simp [Ty.map, Ty.check, Ty.check_map elem]
  | .tuple _ elems => by simp [Ty.map, Ty.check, Ty.checkAll_mapAll elems]
  | .path (.mk place head segments) => by
    simp only [Ty.map, Ty.check, mapError_bind, ← Segment.checkAll_mapAll, ← TyPath.refuse_map,
      TyPath.map, PathHead.check_map head]
  | .slice .. | .reference .. | .pointer .. | .never _ | .infer _ | .implTrait .. | .traitObject ..
  | .bareFn .. | .invocation .. | .group .. | .verbatim .. =>
    Ty.check_map_of_refuse f (by simp [Ty.check]) (by simp [Ty.map, Ty.check])

theorem Ty.checkAll_mapAll : (types : List (Ty σ)) →
    Ty.checkAll (Ty.mapAll f types) = (Ty.checkAll types).mapError (TypeRejection.map f)
  | [] => rfl
  | ty :: rest => by
    simp only [Ty.mapAll, Ty.checkAll, Ty.check_map ty, Ty.checkAll_mapAll rest, mapError_bind]

theorem PathHead.check_map :
    (head : PathHead σ) → (head.map f).check = head.check.mapError (TypeRejection.map f)
  | .relative => rfl
  | .rooted => rfl
  | .self _ ty | .selfAs _ ty _ => by simp [PathHead.map, PathHead.check, Ty.check_map ty]

theorem Segment.checkAll_mapAll (refuse : String → TypeRejection σ) :
    (segments : List (Segment σ)) →
    Segment.checkAll (fun category => (refuse category).map f) (Segment.mapAll f segments) =
      (Segment.checkAll refuse segments).mapError (TypeRejection.map f)
  | [] => rfl
  | .mk _ _ args :: rest => by
    simp only [Segment.mapAll, Segment.map, Segment.checkAll, mapError_bind,
      SegmentArgs.check_map refuse args, Segment.checkAll_mapAll refuse rest]

theorem SegmentArgs.check_map (refuse : String → TypeRejection σ) :
    (args : SegmentArgs σ) →
    (args.map f).check (fun category => (refuse category).map f) =
      (args.check refuse).mapError (TypeRejection.map f)
  | .absent => rfl
  | .angle _ args => by
    simp only [SegmentArgs.map, SegmentArgs.check, GenericArg.checkAll_mapAll refuse args]
  | .call .. => by simp [SegmentArgs.map, SegmentArgs.check, mapError_error]

theorem GenericArg.check_map (refuse : String → TypeRejection σ) :
    (arg : GenericArg σ) →
    (arg.map f).check (fun category => (refuse category).map f) =
      (arg.check refuse).mapError (TypeRejection.map f)
  | .lifetime .. | .constraint .. | .const .. =>
    by simp [GenericArg.map, GenericArg.check, mapError_error]
  | .type _ ty | .binding _ _ ty => by simp [GenericArg.map, GenericArg.check, Ty.check_map ty]

theorem GenericArg.checkAll_mapAll (refuse : String → TypeRejection σ) :
    (args : List (GenericArg σ)) →
    GenericArg.checkAll (fun category => (refuse category).map f) (GenericArg.mapAll f args) =
      (GenericArg.checkAll refuse args).mapError (TypeRejection.map f)
  | [] => rfl
  | arg :: rest => by
    simp only [GenericArg.mapAll, GenericArg.checkAll, mapError_bind,
      GenericArg.check_map refuse arg, GenericArg.checkAll_mapAll refuse rest]

end

/-- A type is described or refused whatever its places are. -/
theorem Ty.descriptor_map (ty : Ty σ) :
    (ty.map f).descriptor = ty.descriptor.mapError (TypeRejection.map f) := by
  rw [Ty.descriptor, Ty.descriptor, Ty.check_map, Ty.render_map]
  cases ty.check <;> rfl

@[simp]
theorem Ty.mapAll_eq_map (types : List (Ty σ)) : Ty.mapAll f types = types.map (Ty.map f) := by
  induction types with
  | nil => rfl
  | cons ty rest ih => rw [Ty.mapAll, ih, List.map_cons]

@[simp]
theorem Ty.map?_eq_map (ty : Option (Ty σ)) : Ty.map? f ty = ty.map (Ty.map f) := by
  cases ty <;> rfl

@[simp]
theorem Segment.mapAll_eq_map (segments : List (Segment σ)) :
    Segment.mapAll f segments = segments.map (Segment.map f) := by
  induction segments with
  | nil => rfl
  | cons segment rest ih => rw [Segment.mapAll, ih, List.map_cons]

@[simp]
theorem GenericArg.mapAll_eq_map (args : List (GenericArg σ)) :
    GenericArg.mapAll f args = args.map (GenericArg.map f) := by
  induction args with
  | nil => rfl
  | cons arg rest ih => rw [GenericArg.mapAll, ih, List.map_cons]

@[simp]
theorem Bound.mapAll_eq_map (bounds : List (Bound σ)) :
    Bound.mapAll f bounds = bounds.map (Bound.map f) := by
  induction bounds with
  | nil => rfl
  | cons bound rest ih => rw [Bound.mapAll, ih, List.map_cons]

end Types

section Items

variable {σ τ υ : Type} (f : σ → τ) (g : τ → υ)

@[simp]
theorem AttributeInput.map_map (input : AttributeInput σ) :
    (input.map f).map g = input.map (g ∘ f) := by
  cases input <;> simp [AttributeInput.map]

@[simp]
theorem Attribute.map_map (a : Attribute σ) : (a.map f).map g = a.map (g ∘ f) := by
  simp [Attribute.map]

@[simp]
theorem Visibility.map_map (visibility : Visibility σ) :
    (visibility.map f).map g = visibility.map (g ∘ f) := by
  cases visibility <;> simp [Visibility.map]

@[simp]
theorem Generics.map_map (generics : Generics σ) :
    (generics.map f).map g = generics.map (g ∘ f) := by
  simp [Generics.map, GenericParam.map, Function.comp_def]

@[simp]
theorem Field.map_map (field : Field σ) : (field.map f).map g = field.map (g ∘ f) := by
  simp [Field.map, Ty.map_map, Function.comp_def]

@[simp]
theorem Pattern.map_map (pattern : Pattern σ) :
    (pattern.map f).map g = pattern.map (g ∘ f) := by
  cases pattern <;> simp [Pattern.map]

@[simp]
theorem MethodInput.map_map (input : MethodInput σ) :
    (input.map f).map g = input.map (g ∘ f) := by
  cases input <;>
    simp [MethodInput.map, Receiver.map, TypedInput.map, Ty.map_map, Function.comp_def]

@[simp]
theorem Member.map_map (member : Member σ) : (member.map f).map g = member.map (g ∘ f) := by
  cases member <;>
    simp [Member.map, Method.map, OtherMember.map, Ty.map_map, Function.comp_def]

theorem Item.map_map (item : Item σ) : (item.map f).map g = item.map (g ∘ f) := by
  cases item <;>
    simp [Item.map, StructItem.map, ImplItem.map, OtherItem.map, Ty.map_map, TyPath.map_map,
      Function.comp_def]

end Items

end ActorGlue
