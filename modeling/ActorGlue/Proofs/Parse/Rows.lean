import ActorGlue.Proofs.Parse.Marks

/-!
# Rows of items

The lexemes of a file are its inner attributes and a row of items, each of them in front of the
next one.
-/

namespace ActorGlue

open Parse

/-- A row of items that are read one after the other. -/
inductive Row : List Lexeme → List (Item Extent) → Prop where
  | nil : Row [] []
  | cons {ahead left : List Lexeme} {value : Item Extent} {values : List (Item Extent)}
      (read : item ahead = .ok (value, left)) (frame : Frame ahead left value)
      (rest : Row left values) : Row ahead (value :: values)

variable {rest left ahead : List Lexeme} {values : List (Item Extent)}

namespace Parse

instance : Shrinks item where
  suffix {ahead left value} h := by
    cases ahead with
    | nil => cases h
    | cons lexeme rest =>
      rw [item_apply (List.cons_ne_nil _ _)] at h
      exact Shrinks.suffix h

instance : Shrinks fileStep := by unfold fileStep; infer_instance

theorem row_of_repeats (scanned : ∀ lexeme ∈ ahead, lexeme.IsScanned)
    (h : Repeats fileStep ahead values left) :
    left = [] ∧ Row ahead values ∧ ahead[0]?.any (·.is "!") = false := by
  induction h with
  | @last ahead left items taken =>
    cases ahead with
    | nil =>
      cases taken
      exact ⟨rfl, .nil, rfl⟩
    | cons lexeme rest =>
      obtain ⟨_, _, _, same⟩ := bind_eq_ok.mp (show (do
        return ([← item], true) : Parser (List (Item Extent) × Bool)) (lexeme :: rest) = _
        from taken)
      cases same
  | @next ahead middle left items others taken _ _ ih =>
    cases ahead with
    | nil => cases taken
    | cons lexeme rest =>
      obtain ⟨value, _, read, same⟩ := bind_eq_ok.mp (show (do
        return ([← item], true) : Parser (List (Item Extent) × Bool)) (lexeme :: rest) = _
        from taken)
      cases same
      have behind := Shrinks.suffix read
      obtain ⟨rfl, row, calm⟩ := ih fun lexeme member => scanned lexeme (behind.mem member)
      obtain ⟨frame⟩ := exists_frame scanned calm read
      exact ⟨rfl, .cons read frame row, item_calm scanned read⟩

/-- A file is its inner attributes and a row of items. -/
theorem file_eq_ok {lexemes : List Lexeme} (scanned : ∀ lexeme ∈ lexemes, lexeme.IsScanned)
    (h : file lexemes = .ok (values, left)) :
    ∃ (prelude : List Block) (ahead : List Lexeme), lexemes = Block.all prelude ++ ahead ∧
      (∀ block ∈ prelude, block.isInner) ∧ left = [] ∧ Row ahead values := by
  obtain ⟨_, ahead, inner, steps⟩ := bind_eq_ok.mp h
  obtain ⟨prelude, rfl, -, all, -⟩ := Block.exists_of_attributes scanned inner
  obtain ⟨rfl, row, -⟩ := row_of_repeats
    (fun lexeme member => scanned lexeme (List.mem_append_right _ member))
    (many_eq_ok_iff.mp steps)
  exact ⟨prelude, ahead, rfl, all rfl, rfl, row⟩

end Parse

end ActorGlue
