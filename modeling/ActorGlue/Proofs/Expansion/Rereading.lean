import ActorGlue.Proofs.Expansion.Files

/-!
# Annotated items are read again

Every annotated item of a file is read again from what is left without its annotation, so the
expansion of a file that is parsed stops at no item: it reports no fault of the grammar, and all
its diagnostics have their places in the file.
-/

namespace ActorGlue

open Parse

/-- An annotated item of a row is read again without its annotation. -/
theorem Row.readAgain {source : Source} (read : Source.read source.text = .ok source)
    {outer ahead : List Lexeme} {values : List (Item Extent)}
    (whole : source.lexemes = outer ++ ahead) (row : Row ahead values) {value : Item Extent}
    (member : value ∈ values) {a : Attribute Span} {target : Target}
    (marked : (value.map source.span).marked? = some (a, target)) :
    ∃ again, ReadAgain source.text (value.map source.span) a again := by
  obtain ⟨outer, ahead, left, whole, taken, ⟨frame⟩⟩ := row.exists_of_mem whole member
  obtain ⟨kept, cut, later, split, rfl⟩ := frame.exists_of_marked marked
  obtain ⟨c⟩ := exists_cut read whole split
  exact ⟨_, c.readAgain split⟩

/-- Expanding the items of a parsed file gives an expansion whose diagnostics fit the text. -/
theorem expandFile_of_parsed (naming : Naming) {text : List Char} {items : List (Item Span)}
    (accepted : parseFile text = .ok items) :
    ∃ expansion, expandFile naming text = .ok expansion ∧
      List.Forall₂ (Diagnostic.Agrees text.length text.length) expansion.diagnostics
        expansion.diagnostics := by
  obtain ⟨source, prelude, ahead, values, read, rfl, whole, -, row, rfl⟩ :=
    parseFile_eq_ok accepted
  have expanded := Twins.expandItems (t := .refl read) naming whole row {}
  simp only [Twins.refl] at expanded
  simp only [expandFile, accepted]
  revert expanded
  generalize expandItems naming source.text {} (values.map (·.map source.span)) = result
  rintro expanded
  cases result with
  | error halt => cases expanded; contradiction
  | ok found =>
    cases expanded with
    | ok same => exact ⟨_, rfl, same.diagnostics⟩

/-- Every annotated item of a file that is parsed is read again, as the same item, from its text
without the annotation; so expanding the file gives a result, no diagnostic of it is a complaint
of the grammar, and each place lies in the text. -/
theorem annotated_items_read_again (naming : Naming) {text : List Char} {items : List (Item Span)}
    (accepted : parseFile text = .ok items) :
    (∀ item ∈ items, ∀ a target, item.marked? = some (a, target) →
      ∃ again, ReadAgain text item a again) ∧
    ∃ expansion, expandFile naming text = .ok expansion ∧
      ∀ diagnostic ∈ expansion.diagnostics, ∀ leaf ∈ diagnostic.leaves,
        (∀ code, leaf.code = some code → code.isSyntax = false) ∧
          ∀ place, leaf.place = some place →
            0 ≤ place.start ∧ place.start ≤ place.stop ∧ place.stop ≤ text.length := by
  constructor
  · obtain ⟨source, prelude, ahead, values, read, rfl, whole, -, row, rfl⟩ :=
      parseFile_eq_ok accepted
    intro item member a target marked
    obtain ⟨value, among, rfl⟩ := List.mem_map.mp member
    exact row.readAgain read whole among marked
  · obtain ⟨expansion, expanded, fits⟩ := expandFile_of_parsed naming accepted
    refine ⟨expansion, expanded, fun diagnostic member leaf among => ?_⟩
    have agrees := List.forall₂_same.mp fits diagnostic member
    obtain ⟨-, -, -, lawful, places⟩ := List.forall₂_same.mp agrees leaf among
    refine ⟨lawful, fun place same => ?_⟩
    rw [same] at places
    cases places with
    | some fits => exact ⟨fits.1.lower, fits.1.order, fits.1.upper⟩

theorem annotated_items_read_again_generic :
    ∃ items, parseFile "#[doc = \"state\"] #[fvm_state(codec)] /* T */ pub struct A<T>(T);".toList =
        .ok items ∧ items.any (·.marked?.isSome) ∧
      (∀ item ∈ items, ∀ a target, item.marked? = some (a, target) → ∃ again, ReadAgain
        "#[doc = \"state\"] #[fvm_state(codec)] /* T */ pub struct A<T>(T);".toList item a again) ∧
      ∃ expansion, expandFile {}
          "#[doc = \"state\"] #[fvm_state(codec)] /* T */ pub struct A<T>(T);".toList =
            .ok expansion ∧
        ∀ diagnostic ∈ expansion.diagnostics, ∀ leaf ∈ diagnostic.leaves,
          (∀ code, leaf.code = some code → code.isSyntax = false) ∧
            ∀ place, leaf.place = some place →
              0 ≤ place.start ∧ place.start ≤ place.stop ∧ place.stop ≤
                "#[doc = \"state\"] #[fvm_state(codec)] /* T */ pub struct A<T>(T);".toList.length := by
  have parsed : (parseFile
      "#[doc = \"state\"] #[fvm_state(codec)] /* T */ pub struct A<T>(T);".toList).toOption.any
        (·.any (·.marked?.isSome)) = true := by
    decide +kernel
  obtain ⟨items, accepted, marked⟩ := exists_ok_of_any parsed
  exact ⟨items, accepted, marked, annotated_items_read_again {} accepted⟩

end ActorGlue
