import ActorGlue.Proofs.Tree.Map
import ActorGlue.Tree.Outline

/-!
# Nested outlines

In a nested outline the children of a node lie inside it and apart from each other.
-/

namespace ActorGlue

namespace Span

/-- The span lies inside another. -/
def Inside (inner outer : Span) : Prop :=
  outer.start ≤ inner.start ∧ inner.stop ≤ outer.stop

/-- The span ends before another begins. -/
def Before (one other : Span) : Prop :=
  one.stop ≤ other.start

end Span

/-- Nodes of the kind have the text that they cover. -/
def NodeKind.sliced : NodeKind → Bool
  | .attribute | .receiver | .method | .otherMember | .struct | .impl | .otherItem => true
  | _ => false

namespace Outline

/-- The places of two nodes do not overlap. -/
def Apart (one other : Outline Span) : Prop :=
  ∀ first ∈ one.place, ∀ second ∈ other.place, first.Before second ∨ second.Before first

/-- A node with its children inside and apart from each other, and with the text at its place if it
has to have it. Only a visibility and generics may have no place, and then they have no children.
The attributes of a receiver stand before it. -/
structure Fits (slice : Span → String) (node : Outline Span) : Prop where
  unplaced : node.place = none →
    (node.kind = .visibility ∨ node.kind = .generics) ∧ node.children = []
  sliced : node.kind.sliced → ∀ place ∈ node.place, node.text = some (slice place)
  inside : ∀ child ∈ node.children, ∀ inner ∈ child.place, ∀ outer ∈ node.place,
    inner.Inside outer ∨ node.kind = .receiver ∧ child.kind = .attribute ∧ inner.Before outer
  apart : node.children.Pairwise Apart

variable {σ : Type} {tree node : Outline σ} {trees : List (Outline σ)}

theorem mem_preorderAll : node ∈ preorderAll trees ↔ ∃ tree ∈ trees, node ∈ tree.preorder := by
  induction trees with
  | nil => simp [preorderAll]
  | cons tree rest ih => simp [preorderAll, ih]

theorem self_mem_preorder (tree : Outline σ) : tree ∈ tree.preorder := by
  cases tree
  simp [preorder]

end Outline

section Lists

/-! ## Trees with other places -/

variable {σ τ : Type} (f : σ → τ)

theorem Ty.outlineAll_map (types : List (Ty σ)) :
    Ty.outlineAll (Ty.mapAll f types) = types.map fun ty => (ty.map f).outline := by
  induction types with
  | nil => rfl
  | cons ty rest ih => rw [Ty.mapAll, Ty.outlineAll, ih, List.map_cons]

theorem Segment.outlineAll_map (segments : List (Segment σ)) :
    Segment.outlineAll (Segment.mapAll f segments) =
      segments.map fun segment => (segment.map f).outline := by
  induction segments with
  | nil => rfl
  | cons segment rest ih => rw [Segment.mapAll, Segment.outlineAll, ih, List.map_cons]

theorem GenericArg.outlineAll_map (args : List (GenericArg σ)) :
    GenericArg.outlineAll (GenericArg.mapAll f args) = args.map fun arg => (arg.map f).outline := by
  induction args with
  | nil => rfl
  | cons arg rest ih => rw [GenericArg.mapAll, GenericArg.outlineAll, ih, List.map_cons]

theorem Bound.outlineAll_map (bounds : List (Bound σ)) :
    Bound.outlineAll (Bound.mapAll f bounds) = bounds.map fun bound => (bound.map f).outline := by
  induction bounds with
  | nil => rfl
  | cons bound rest ih => rw [Bound.mapAll, Bound.outlineAll, ih, List.map_cons]

theorem TyPath.place_outline (path : TyPath σ) :
    (path.map f).outline.place = some (f path.place) := by
  cases path
  rw [TyPath.map, TyPath.outline]
  rfl

theorem Ty.place_outline (ty : Ty σ) : (ty.map f).outline.place = some (f ty.place) := by
  cases ty with
  | path path =>
    rw [Ty.map, Ty.outline]
    exact TyPath.place_outline f path
  | _ =>
    rw [Ty.map, Ty.outline]
    rfl

end Lists

end ActorGlue
