import ActorGlue.Proofs.Parse.Reparse

/-!
# Items and their frames

An item in front of other lexemes is some attribute blocks, the lexemes of its body and a barrier.
Each body is the same item by itself, with any blocks in front of it. A file is a row of such items
behind its inner attributes.
-/

namespace ActorGlue

open Parse
variable {ahead : List Lexeme} {value : Item Extent}

namespace Parse

section Ends

variable {left other : List Lexeme} (scanned : ∀ lexeme ∈ ahead, lexeme.IsScanned)
  (calm : left[0]?.any (·.is "!") = false) (calm' : other[0]?.any (·.is "!") = false)
  (free : other[0]?.any (·.is ";") = false)
include scanned calm calm' free

theorem itemRest_alone {before : Nat} {attributes : List (Attribute Extent)}
    {visibility : Visibility Extent}
    (h : itemRest before attributes visibility ahead = .ok (value, left)) :
    EndsAlone other before attributes visibility ahead left value := by
  cases ahead with
  | nil => cases h
  | cons lexeme rest =>
    rw [itemRest_cons] at h
    split_ifs at h with isStruct isImpl
    · obtain ⟨found, _, taken, same⟩ := bind_eq_ok.mp h
      cases same
      exact structItem_alone scanned isStruct taken
    · obtain ⟨found, _, taken, same⟩ := bind_eq_ok.mp h
      cases same
      exact implItem_alone scanned (by simpa using isStruct) isImpl calm calm' taken
    · obtain ⟨found, _, taken, same⟩ := bind_eq_ok.mp h
      cases same
      exact otherItem_alone scanned (by simpa using isStruct) (by simpa using isImpl) free taken

/-- An item is its attributes, which are blocks, and what ends with a barrier; with any blocks in
front and other lexemes behind, that is the same item again. -/
theorem item_elsewhere (h : item ahead = .ok (value, left)) :
    ∃ blocks inside stop, ∃ body : Item (Stretch inside.length), stop.isBarrier ∧
      ahead = Block.all blocks ++ (inside ++ stop :: left) ∧
      value = (body.map (Stretch.extent (left.length + 1))).withHead ⟨ahead.length, left.length⟩
        (Block.placed (inside.length + (left.length + 1)) blocks) ∧
      (inside ++ [stop])[0]?.any (·.is "#") = false ∧
      ∀ kept, item (Block.all kept ++ (inside ++ stop :: other)) =
        .ok ((body.map (Stretch.extent (other.length + 1))).withHead
          ⟨(Block.all kept).length + (inside.length + (other.length + 1)), other.length⟩
          (Block.placed (inside.length + (other.length + 1)) kept), other) := by
  have some : ahead ≠ [] := by
    rintro rfl
    cases h
  rw [item_apply some] at h
  obtain ⟨attributes, rest, attributed, h⟩ := bind_eq_ok.mp h
  obtain ⟨visible, tail, seen, h⟩ := bind_eq_ok.mp h
  obtain ⟨blocks, rfl, rfl, -, ends⟩ := Block.exists_of_attributes scanned attributed
  obtain ⟨front, rfl⟩ := Shrinks.suffix seen
  obtain ⟨inner, stop, rfl, barrier, alone⟩ := itemRest_alone
    (fun lexeme member => scanned lexeme (by simp [member])) calm calm' free h
  -- The visibility is read in the same window as all that follows it.
  let w : Window := ⟨(front ++ inner).length, stop, barrier, left, other⟩
  obtain ⟨sight, rfl, again⟩ := @Window.Sim.visibility w (front ++ inner) le_rfl
    visible inner (by rwa [Window.left, List.append_assoc])
  replace again : visibility (front ++ inner ++ stop :: other) =
      .ok (sight.map (Stretch.extent (other.length + 1)), inner ++ stop :: other) := again
  obtain ⟨body, rfl, itself⟩ := alone (front ++ inner).length (by simp) sight rfl
  have head : ∀ last, (front ++ inner ++ stop :: last)[0]?.any (·.is "#") = false := by
    intro last
    have same : (front ++ inner ++ stop :: last)[0]? = (front ++ (inner ++ stop :: left))[0]? := by
      cases front <;> cases inner <;> rfl
    rw [same, ends rfl]
  refine ⟨blocks, front ++ inner, stop, body, barrier, by simp, ?_, head [], fun kept => ?_⟩
  · simp [Nat.add_assoc]
  · have nonempty : Block.all kept ++ (front ++ inner ++ stop :: other) ≠ [] := by simp
    have size : (front ++ inner ++ stop :: other).length =
        (front ++ inner).length + (other.length + 1) := List.length_append
    rw [item_apply nonempty, bind_of_ok (Block.attributes_all (head other)), bind_of_ok again,
      itself, List.length_append, size]

end Ends

end Parse

/-- How an item stands in front of other lexemes: its attributes are blocks, a barrier ends it,
and what is between them is the same item by itself behind any blocks. -/
structure Frame (ahead left : List Lexeme) (value : Item Extent) where
  blocks : List Block
  inside : List Lexeme
  stop : Lexeme
  body : Item (Stretch inside.length)
  barrier : stop.isBarrier
  whole : ahead = Block.all blocks ++ (inside ++ stop :: left)
  reads : value = (body.map (Stretch.extent (left.length + 1))).withHead
    ⟨ahead.length, left.length⟩ (Block.placed (inside.length + (left.length + 1)) blocks)
  alone : ∀ kept, item (Block.all kept ++ (inside ++ [stop])) =
    .ok ((body.map (Stretch.extent 1)).withHead
      ⟨(Block.all kept).length + (inside.length + 1), 0⟩
      (Block.placed (inside.length + 1) kept), [])

theorem exists_frame {left : List Lexeme} (scanned : ∀ lexeme ∈ ahead, lexeme.IsScanned)
    (calm : left[0]?.any (·.is "!") = false) (h : item ahead = .ok (value, left)) :
    Nonempty (Frame ahead left value) := by
  obtain ⟨blocks, inside, stop, body, barrier, whole, reads, -, alone⟩ :=
    @item_elsewhere ahead value left [] scanned calm rfl rfl h
  exact ⟨⟨blocks, inside, stop, body, barrier, whole, reads, alone⟩⟩

namespace Parse

/-- No item begins with an exclamation mark. -/
theorem item_calm {left : List Lexeme} (scanned : ∀ lexeme ∈ ahead, lexeme.IsScanned)
    (h : item ahead = .ok (value, left)) : ahead[0]?.any (·.is "!") = false := by
  by_contra begins
  obtain ⟨bang, rest, is, rfl⟩ := head_of_any (by simpa using begins)
  have text : bang.text = "!" := by
    simp only [Lexeme.is, Bool.and_eq_true, decide_eq_true_eq] at is
    exact is.2
  have kind : bang.kind = .punct := by
    simp only [Lexeme.is, Bool.and_eq_true, Bool.or_eq_true, decide_eq_true_eq] at is
    refine is.1.resolve_right fun word => ?_
    have starts := scanned bang (by simp) word
    rw [text] at starts
    exact absurd starts (by decide)
  have bare : attributes false (bang :: rest) = .ok ([], bang :: rest) :=
    @Block.attributes_all _ [] (by simp [Lexeme.is, text])
  have seen : visibility (bang :: rest) = .ok (.inherited, bang :: rest) := by
    have other : ∀ word, bang.isIdent word = false := by simp [Lexeme.isIdent, kind]
    rw [visibility, get_bind]
    simp only [other, Bool.false_and, Bool.false_eq_true, if_false, at?_bind, pure_apply]
  rw [item_apply (by simp), bind_of_ok bare, bind_of_ok seen, itemRest_cons] at h
  have plain : ∀ word, bang.isIdent word = false := by simp [Lexeme.isIdent, kind]
  have noImpl : startsImpl (bang :: rest) = false := by simp [startsImpl, plain, text]
  rw [if_neg (by simp [plain]), if_neg (by simp [noImpl])] at h
  obtain ⟨found, _, taken, -⟩ := bind_eq_ok.mp h
  obtain ⟨passed, keyword, later, split, taken⟩ := otherItem_eq_ok.mp taken
  have stays : splitQualifiers [] (bang :: rest) = ([], bang :: rest) := by
    simp [splitQualifiers, kind, plain]
  obtain ⟨rfl, same⟩ := Prod.mk.inj (stays.symm.trans split)
  obtain ⟨rfl, rfl⟩ := List.cons.inj same
  obtain ⟨name, named⟩ : ∃ name, itemKind [] bang rest = ("!", name) := by
    simp [itemKind, kind, Lexeme.isPunct, text]
  rw [otherRest, named] at taken
  cases taken

end Parse

end ActorGlue
