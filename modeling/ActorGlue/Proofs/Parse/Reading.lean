import ActorGlue.Proofs.Parse.Termination
import ActorGlue.Proofs.Tree.Nesting

/-!
# Reading rows of trees

The trees that are read from some of the lexemes ahead lie there nested and apart. Such rows are
put together to longer rows, or below a common node.
-/

namespace ActorGlue

open Outline

/-- The tokens of a source lie one after the other. -/
class Source.Ordered (source : Source) : Prop where
  starts : ∀ {later earlier}, later ≤ earlier → source.startAt earlier ≤ source.startAt later
  stops : ∀ {later earlier}, later ≤ earlier → source.stopAt earlier ≤ source.stopAt later
  apart : ∀ {later earlier}, later ≤ earlier → source.stopAt earlier ≤ source.startAt later

/-- The span is that of some lexemes between two marks. -/
def Source.Covers (source : Source) (ahead left : Nat) (span : Span) : Prop :=
  ∃ before after, span = source.span ⟨before, after⟩ ∧ after < before ∧ before ≤ ahead ∧
    left ≤ after

variable {ahead' left' middle : Nat} {tree : Outline Span} {place : Span}

theorem Source.Covers.widen {source : Source} {ahead left : Nat} {span : Span}
    (covers : source.Covers ahead left span) (front : ahead ≤ ahead') (back : left' ≤ left) :
    source.Covers ahead' left' span := by
  obtain ⟨before, after, same, proper, starts, stops⟩ := covers
  exact ⟨before, after, same, proper, starts.trans front, back.trans stops⟩

/-- The text of a node is that of its place, if nodes of the kind have it from there. -/
def Source.Shows (source : Source) (kind : NodeKind) (place : Span) (text : Option String) : Prop :=
  (bif kind.sliced then some (source.slice place) else text) = text

/-- The trees are nested, and they lie apart from each other between two marks. -/
structure Lays (source : Source) (ahead left : Nat) (trees : List (Outline Span)) : Prop where
  fits : ∀ node ∈ preorderAll trees, node.Fits source.slice
  covers : ∀ node ∈ preorderAll trees, ∀ place ∈ node.place, source.Covers ahead left place
  apart : trees.Pairwise Apart

namespace Lays

variable {source : Source} {ahead left : Nat} {trees others : List (Outline Span)}
  {kind : NodeKind} {text : Option String}

theorem nil : Lays source ahead left [] :=
  ⟨by simp [preorderAll], by simp [preorderAll], .nil⟩

theorem widen (lays : Lays source ahead left trees) (front : ahead ≤ ahead') (back : left' ≤ left) :
    Lays source ahead' left' trees := by
  refine ⟨lays.fits, fun node member place found => ?_, lays.apart⟩
  exact (lays.covers node member place found).widen front back

theorem top (lays : Lays source ahead left trees) (member : tree ∈ trees) :
    ∀ place ∈ tree.place, source.Covers ahead left place :=
  lays.covers tree (mem_preorderAll.mpr ⟨tree, member, self_mem_preorder tree⟩)

theorem perm (lays : Lays source ahead left trees) (same : trees.Perm others) :
    Lays source ahead left others := by
  have all : ∀ node, node ∈ preorderAll others → node ∈ preorderAll trees := by
    simp only [mem_preorderAll, same.mem_iff]
    exact fun _ => id
  refine ⟨fun node member => lays.fits node (all node member),
    fun node member => lays.covers node (all node member), ?_⟩
  refine (same.pairwise_iff fun {one other} apart => ?_).mp lays.apart
  exact fun first found second found' => (apart second found' first found).symm

theorem unplaced (optional : kind = .visibility ∨ kind = .generics) :
    Lays source ahead left [.node kind none text []] := by
  have all : ∀ node, node ∈ preorderAll [Outline.node kind (none : Option Span) text []] →
      node = .node kind none text [] := by
    simp [preorderAll, preorder]
  refine ⟨fun node member => ?_, fun node member => ?_, List.pairwise_singleton _ _⟩
  · obtain rfl := all node member
    refine ⟨fun _ => ⟨optional, rfl⟩, fun _ place found => ?_, fun child found => ?_, .nil⟩
    · cases found
    · cases found
  · obtain rfl := all node member
    intro place found
    cases found

/-- A node over trees that lie inside of it. -/
theorem under (lays : Lays source ahead left trees) (shows : source.Shows kind place text)
    (covers : source.Covers ahead left place)
    (inside : ∀ child ∈ trees, ∀ inner ∈ child.place, inner.Inside place ∨
      kind = .receiver ∧ child.kind = .attribute ∧ inner.Before place) :
    Lays source ahead left [.node kind place text trees] := by
  have all : ∀ node, node ∈ preorderAll [.node kind place text trees] ↔
      node = .node kind place text trees ∨ node ∈ preorderAll trees := by
    simp [preorderAll, preorder]
  refine ⟨fun node member => ?_, fun node member => ?_, List.pairwise_singleton _ _⟩
  · rcases (all node).mp member with rfl | deeper
    · refine ⟨fun missing => ?_, ?_, ?_, lays.apart⟩
      · cases missing
      · rintro sliced _ ⟨⟩
        rw [Source.Shows, show kind.sliced = true from sliced, cond_true] at shows
        exact shows.symm
      · rintro child found inner here _ ⟨⟩
        exact inside child found inner here
    · exact lays.fits node deeper
  · rcases (all node).mp member with rfl | deeper
    · rintro _ ⟨⟩
      exact covers
    · exact lays.covers node deeper

/-- A node that covers the same as its only child. -/
theorem wrap (lays : Lays source ahead left [tree]) (shows : source.Shows kind place text)
    (same : tree.place = some place) :
    Lays source ahead left [.node kind (some place) text [tree]] := by
  refine lays.under shows (lays.top List.mem_cons_self place same) fun child found inner here => ?_
  obtain rfl := List.mem_singleton.mp found
  obtain rfl := Option.some.inj (here.symm.trans same)
  exact .inl ⟨le_rfl, le_rfl⟩

variable [source.Ordered]

theorem append (first : Lays source ahead middle trees) (second : Lays source middle left others)
    (front : middle ≤ ahead) (back : left ≤ middle) : Lays source ahead left (trees ++ others) := by
  have all : ∀ node, node ∈ preorderAll (trees ++ others) ↔
      node ∈ preorderAll trees ∨ node ∈ preorderAll others := by
    simp [mem_preorderAll, or_and_right, exists_or]
  have first' := first.widen le_rfl back
  have second' := second.widen front le_rfl
  refine ⟨fun node member => ?_, fun node member => ?_, List.pairwise_append.mpr
    ⟨first.apart, second.apart, fun one here other there => ?_⟩⟩
  · exact ((all node).mp member).elim (first'.fits node) (second'.fits node)
  · exact ((all node).mp member).elim (first'.covers node) (second'.covers node)
  · -- Whatever the first row holds has been read before the second row begins.
    intro place found place' found'
    obtain ⟨_, after, rfl, -, -, stops⟩ := first.top here place found
    obtain ⟨before, _, rfl, -, starts, -⟩ := second.top there place' found'
    exact .inl (Source.Ordered.apart (starts.trans stops))

theorem inside (lays : Lays source ahead left trees) (member : tree ∈ trees) :
    ∀ place ∈ tree.place, place.Inside (source.span ⟨ahead, left⟩) := by
  intro place found
  obtain ⟨before, after, rfl, -, starts, stops⟩ := lays.top member place found
  exact ⟨Source.Ordered.starts starts, Source.Ordered.stops stops⟩

/-- A node over all that was read between two marks. -/
theorem node (lays : Lays source ahead left trees)
    (shows : source.Shows kind (source.span ⟨ahead', left'⟩) text) (front : ahead ≤ ahead')
    (back : left' ≤ left) (proper : left' < ahead') :
    Lays source ahead' left' [.node kind (some (source.span ⟨ahead', left'⟩)) text trees] := by
  have wider := lays.widen front back
  exact wider.under shows ⟨ahead', left', rfl, proper, le_rfl, le_rfl⟩
    fun child found inner here => .inl (wider.inside found inner here)

theorem leaf (shows : source.Shows kind (source.span ⟨ahead, left⟩) text) (proper : left < ahead) :
    Lays source ahead left [.node kind (some (source.span ⟨ahead, left⟩)) text []] :=
  nil.node shows (le_refl ahead) (le_refl left) proper

/-- A receiver lies behind its attributes and over its type. -/
theorem receiver (attributes : Lays source ahead middle trees)
    (kinds : ∀ tree ∈ trees, tree.kind = .attribute) (type : Lays source middle left others)
    (front : middle ≤ ahead) (proper : left < middle) :
    Lays source ahead left [.node .receiver (some (source.span ⟨middle, left⟩))
      (some (source.slice (source.span ⟨middle, left⟩))) (trees ++ others)] := by
  refine (attributes.append type front proper.le).under rfl
    ⟨middle, left, rfl, proper, front, le_rfl⟩ fun child found inner here => ?_
  rcases List.mem_append.mp found with before | below
  · obtain ⟨_, after, rfl, -, -, stops⟩ := attributes.top before inner here
    exact .inr ⟨rfl, kinds child before, Source.Ordered.apart stops⟩
  · exact .inl (type.inside below inner here)

end Lays

namespace Parse

theorem lays_chains {α : Type} (source : Source) [source.Ordered] (tree : α → Outline Span) :
    Chains fun ahead left values => Lays source ahead left (values.map tree) where
  nil := .nil
  widen := Lays.widen
  append first second front back := by
    rw [List.map_append]
    exact first.append second front back

end Parse

end ActorGlue
