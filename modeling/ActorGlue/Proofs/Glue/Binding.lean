import ActorGlue.Proofs.Glue.Dispatch

/-!
# Arguments are bound with their types

The case of an entry point is written whatever its names are. If the entry point has arguments, a
line of the case binds them all at once, and their types stand in it as a tuple.
-/

namespace ActorGlue.Glue

/-- The types of arguments as they stand in a case. -/
def annotation (arguments : List Argument) : String :=
  tupleText (arguments.map (·.type))

/-- The line of a case that binds the arguments to what the parameters hold. -/
def bindingLine (arguments : List Argument) : String :=
  "let " ++ (tupleText (arguments.map localPattern) ++ ": " ++ annotation arguments) ++
    " = match " ++ (sdkName ++ "::encoding::from_slice(&" ++ resultName 0 ++ ")") ++ " \x7b"

/-- The case of an entry point with arguments has a line that binds them. -/
theorem emitCase_binds (entry : EntryPoint) (stateType : String) (some : entry.arguments ≠ []) :
    ∃ lines, emitCase sdkName stateType ⟨entry, lowerEntry entry stateType⟩ = .ok lines ∧
      "    " ++ bindingLine entry.arguments ∈ lines := by
  obtain ⟨body, made, holds⟩ := exists_entryBody sdkName entry stateType
  have decodes : (⟨⟨.decodeArgs, [resultName 0],
      [("arguments", .list (entry.arguments.map (·.document)))],
      onError serializationFailure "failed to deserialize params"⟩, resultName 1⟩ : Instruction) ∈
      (lowerEntry entry stateType).instructions := by
    refine List.mem_map.mpr ⟨(_, 1), List.mem_zipIdx_iff_getElem?.mpr ?_, rfl⟩
    simp [entrySteps, argumentSteps, some]
  obtain ⟨names, lines, names', written, inside⟩ := holds _ decodes
  obtain ⟨more, after, bound⟩ := @caseLines_decodeArgs sdkName stateType entry.arguments names
    (resultName 1)
  obtain ⟨rfl, -⟩ := Prod.mk.inj (Except.ok.inj (written.symm.trans bound))
  refine ⟨_, by rw [emitCase, made]; rfl, ?_⟩
  have shown : (bindingLine entry.arguments).isEmpty = false := by
    simp [bindingLine]
  have bound : bindingLine entry.arguments ∈ body := inside List.mem_cons_self
  have indented : "    " ++ bindingLine entry.arguments ∈ indent body :=
    List.mem_map.mpr ⟨_, bound, by simp [shown]⟩
  exact List.mem_cons_of_mem _ (List.mem_append_left _ indented)

end ActorGlue.Glue
