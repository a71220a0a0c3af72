import ActorGlue.Fault
import ActorGlue.Tree.Render

/-!
# Argument types

An entry point takes its arguments from a parameter block, so their types are limited to what can
be decoded: paths, arrays, tuples and parenthesized types, with type arguments of the same sort.
The first other type, from left to right and from the outside in, is refused with its category.
-/

namespace ActorGlue

/-- A fault of a type and the place it is reported at. -/
structure TypeRejection (σ : Type) where
  fault : Fault
  place : σ
  deriving DecidableEq, Repr

/-- The category of a type that cannot be decoded whatever is inside it. -/
def Ty.refusedCategory? {σ : Type} : Ty σ → Option String
  | .bareFn .. => some "a bare function type"
  | .group .. => some "a type contained within invisible delimiters"
  | .implTrait .. => some "an impl type"
  | .infer .. => some "the infer type"
  | .invocation .. => some "a macro"
  | .never .. => some "the never type"
  | .pointer .. => some "a pointer type"
  | .reference .. => some "a referenced type"
  | .slice .. => some "a slice type"
  | .traitObject .. => some "a trait object type"
  | _ => none

/-- The refusal of a type by its category. -/
def Ty.refuse {σ : Type} (ty : Ty σ) : TypeRejection σ :=
  match ty.refusedCategory? with
  | some category => ⟨.argumentType category ty.render, ty.place⟩
  | none => ⟨.unhandledType ty.render, ty.place⟩

/-- The refusal of a path for the category of one of its arguments. -/
def TyPath.refuse {σ : Type} (path : TyPath σ) (category : String) : TypeRejection σ :=
  ⟨.argumentType category path.render, path.place⟩

mutual

/-- Checks that values of a type can be decoded. -/
def Ty.check {σ : Type} : Ty σ → Except (TypeRejection σ) Unit
  | .array _ elem _ => elem.check
  | .paren _ elem => elem.check
  | .tuple _ elems => Ty.checkAll elems
  | .path (.mk place head segments) => do
      head.check
      Segment.checkAll (TyPath.mk place head segments).refuse segments
  | ty => .error ty.refuse

/-- Checks several types. -/
def Ty.checkAll {σ : Type} : List (Ty σ) → Except (TypeRejection σ) Unit
  | [] => .ok ()
  | ty :: rest => do
      ty.check
      Ty.checkAll rest

/-- Checks the self type of a path; the trait it is seen as is left alone. -/
def PathHead.check {σ : Type} : PathHead σ → Except (TypeRejection σ) Unit
  | .relative => .ok ()
  | .rooted => .ok ()
  | .self _ ty => ty.check
  | .selfAs _ ty _ => ty.check

/-- Checks the arguments of segments, given how to refuse the path they stand in. -/
def Segment.checkAll {σ : Type} (refuse : String → TypeRejection σ) :
    List (Segment σ) → Except (TypeRejection σ) Unit
  | [] => .ok ()
  | .mk _ _ args :: rest => do
      args.check refuse
      Segment.checkAll refuse rest

/-- Checks the arguments of one segment. -/
def SegmentArgs.check {σ : Type} (refuse : String → TypeRejection σ) :
    SegmentArgs σ → Except (TypeRejection σ) Unit
  | .absent => .ok ()
  | .angle _ args => GenericArg.checkAll refuse args
  | .call .. => .error (refuse "arguments of a function path segment")

/-- Checks one argument in angle brackets. -/
def GenericArg.check {σ : Type} (refuse : String → TypeRejection σ) :
    GenericArg σ → Except (TypeRejection σ) Unit
  | .lifetime .. => .error (refuse "a type with specified lifetime")
  | .type _ ty => ty.check
  | .binding _ _ ty => ty.check
  | .constraint .. => .error (refuse "a constraint type")
  | .const .. => .error (refuse "a const expression")

/-- Checks several arguments in angle brackets. -/
def GenericArg.checkAll {σ : Type} (refuse : String → TypeRejection σ) :
    List (GenericArg σ) → Except (TypeRejection σ) Unit
  | [] => .ok ()
  | arg :: rest => do
      arg.check refuse
      GenericArg.checkAll refuse rest

end

/-- The text that describes a type whose values can be decoded. -/
def Ty.descriptor {σ : Type} (ty : Ty σ) : Except (TypeRejection σ) String :=
  ty.check.map fun _ => ty.render

end ActorGlue
