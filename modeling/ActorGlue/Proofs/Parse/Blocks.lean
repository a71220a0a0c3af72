import ActorGlue.Proofs.Parse.ImplWindow

/-!
# Attributes as blocks

The attributes before an item are blocks of lexemes that are read one by one, each of them the
same way in front of anything. So any of them can be taken out.
-/

namespace ActorGlue

open Parse

variable {lexeme hash : Lexeme} {size behind : Nat} {rest : List Lexeme}

/-- A closing delimiter or a semicolon is a mark and no word. -/
theorem Lexeme.isBarrier_of_is {text : String} (scanned : lexeme.IsScanned) (is : lexeme.is text)
    (mark : Window.barriers.contains text) : lexeme.isBarrier := by
  simp only [Lexeme.is, Bool.and_eq_true, Bool.or_eq_true, decide_eq_true_eq] at is
  obtain ⟨punct | word, rfl⟩ := is
  · simp only [Lexeme.isBarrier, Lexeme.isPunctOf, punct, decide_true, Bool.true_and]
    exact mark
  · have starts := scanned word
    simp only [Window.barriers, List.contains_eq_mem, List.mem_cons, List.not_mem_nil, or_false,
      decide_eq_true_eq] at mark
    obtain same | same | same | same := mark <;> rw [same] at starts <;>
      exact absurd starts (by decide)

/-- A closing delimiter is a barrier. -/
theorem Lexeme.isBarrier_of_closer (closes : lexeme.isCloser) : lexeme.isBarrier := by
  simp only [Lexeme.isCloser, Lexeme.isBarrier, Lexeme.isPunctOf, List.contains_eq_mem,
    List.mem_cons, List.not_mem_nil, or_false, Bool.and_eq_true, decide_eq_true_eq] at closes ⊢
  tauto

namespace Stretch

/-- The stretch between two more lexemes. -/
def enclosed {size : Nat} (stretch : Stretch size) : Stretch (size + 2) :=
  ⟨stretch.before + 1, stretch.after + 1, by have := stretch.within; omega,
    by have := stretch.shorter; omega⟩

theorem extent_enclosed (stretch : Stretch size) :
    stretch.enclosed.extent behind = stretch.extent (behind + 1) := by
  simp only [extent, enclosed, Extent.mk.injEq]
  omega

theorem extent_injective : Function.Injective (Stretch.extent behind : Stretch size → Extent) := by
  rintro ⟨before, after, _, _⟩ ⟨before', after', _, _⟩ same
  simp only [extent, Extent.mk.injEq] at same
  obtain rfl : before = before' := by omega
  obtain rfl : after = after' := by omega
  rfl

end Stretch

theorem AttributeInput.map_injective {σ τ : Type} {f : σ → τ} (injective : Function.Injective f) :
    Function.Injective (AttributeInput.map f) := by
  rintro (_ | group | content) (_ | group' | content') same <;>
    simp only [AttributeInput.map, reduceCtorEq, AttributeInput.list.injEq,
      AttributeInput.value.injEq] at same
  · rfl
  · rw [injective same]
  · rw [Option.map_injective injective same]

/-- An attribute, and the lexemes it is read from in front of anything. -/
structure Block where
  hash : Lexeme
  inside : List Lexeme
  closer : Lexeme
  attr : Attribute (Stretch (inside.length + 2))
  begins : hash.is "#"
  closes : closer.isBarrier
  reads : ∀ other, oneAttribute (hash :: (inside ++ closer :: other)) =
    .ok (attr.map (Stretch.extent other.length), other)

namespace Block

def lexemes (block : Block) : List Lexeme :=
  block.hash :: (block.inside ++ [block.closer])

/-- The lexemes of several blocks. -/
def all (blocks : List Block) : List Lexeme :=
  blocks.flatMap (·.lexemes)

/-- The attributes of several blocks with a number of lexemes behind them. -/
def placed (behind : Nat) : List Block → List (Attribute Extent)
  | [] => []
  | block :: rest =>
    block.attr.map (Stretch.extent ((all rest).length + behind)) :: placed behind rest

/-- The block is an inner attribute. -/
def isInner (block : Block) : Bool :=
  block.attr.inner

theorem oneAttribute_cons (hash : Lexeme) (rest : List Lexeme) :
    oneAttribute (hash :: rest) = attributeRest (hash :: rest).length rest :=
  rfl

/-- An attribute that is read is a block. -/
theorem exists_of_oneAttribute {left : List Lexeme} {a : Attribute Extent}
    (scanned : ∀ lexeme ∈ rest, lexeme.IsScanned) (begins : hash.is "#")
    (h : oneAttribute (hash :: rest) = .ok (a, left)) :
    ∃ block : Block, hash :: rest = block.lexemes ++ left ∧
      a = block.attr.map (Stretch.extent left.length) := by
  rw [oneAttribute_cons] at h
  obtain ⟨front, middle, taken, ended⟩ := bind_eq_ok.mp h
  obtain ⟨_, last, closed, made⟩ := bind_eq_ok.mp ended
  obtain ⟨closer, is, rfl⟩ := expect_eq_ok closed
  obtain ⟨rfl, rfl⟩ := Prod.mk.inj (Except.ok.inj made)
  obtain ⟨inside, rfl⟩ := Shrinks.suffix taken
  have closes : closer.isBarrier :=
    Lexeme.isBarrier_of_is (scanned closer (by simp)) is (by decide)
  have again : ∀ other, ∃ x : Bool × (List String × String) ×
      AttributeInput (Stretch inside.length),
      front = (x.1, x.2.1, x.2.2.map (Stretch.extent (last.length + 1))) ∧
      attributeFront (inside ++ closer :: other) =
        .ok ((x.1, x.2.1, x.2.2.map (Stretch.extent (other.length + 1))), closer :: other) :=
    fun other => Window.Sim.attributeFront (w := ⟨inside.length, closer, closes, last, other⟩)
      le_rfl front [] taken
  obtain ⟨⟨inner, words, input⟩, rfl, -⟩ := again []
  have moved : ∀ behind, (input.map Stretch.enclosed).map (Stretch.extent behind) =
      input.map (Stretch.extent (behind + 1)) := by
    intro behind
    rw [AttributeInput.map_map]
    exact congrArg (AttributeInput.map · input) (funext Stretch.extent_enclosed)
  have whole : ∀ other : List Lexeme,
      (⟨(hash :: (inside ++ closer :: other)).length, other.length⟩ : Extent) =
        (⟨inside.length + 2, 0, le_rfl, by omega⟩ : Stretch (inside.length + 2)).extent
          other.length := by
    intro other
    simp only [Stretch.extent, List.length_cons, List.length_append, Extent.mk.injEq]
    omega
  refine ⟨⟨hash, inside, closer, ⟨⟨inside.length + 2, 0, le_rfl, by omega⟩, words.1, words.2, inner,
    input.map Stretch.enclosed⟩, begins, closes, fun other => ?_⟩, by simp [lexemes], ?_⟩
  · obtain ⟨⟨inner', words', input'⟩, same, front⟩ := again other
    simp only [Prod.mk.injEq] at same
    obtain ⟨rfl, rfl, same⟩ := same
    obtain rfl := AttributeInput.map_injective Stretch.extent_injective same
    rw [oneAttribute_cons, attributeRest, bind_of_ok front, expect_bind]
    simp only [List.getElem?_cons_zero, Option.any_some, is, if_true, List.drop_succ_cons,
      List.drop_zero, extentFrom_bind, whole]
    rw [pure_apply, Attribute.map, moved]
  · rw [whole, Attribute.map, moved]

/-- An attribute with a `!` behind its `#` is an inner one. -/
theorem oneAttribute_inner {left : List Lexeme} {a : Attribute Extent} (is : bang.is "!")
    (h : oneAttribute (hash :: bang :: rest) = .ok (a, left)) : a.inner = true := by
  rw [oneAttribute_cons] at h
  obtain ⟨front, middle, taken, ended⟩ := bind_eq_ok.mp h
  obtain ⟨_, _, _, made⟩ := bind_eq_ok.mp ended
  obtain ⟨rfl, -⟩ := Prod.mk.inj (Except.ok.inj made)
  rw [attributeFront, eat_bind, if_pos (by simpa using is)] at taken
  obtain ⟨_, _, _, taken⟩ := bind_eq_ok.mp taken
  obtain ⟨_, _, _, taken⟩ := bind_eq_ok.mp taken
  obtain ⟨_, _, _, same⟩ := bind_eq_ok.mp taken
  cases same
  rfl

theorem attributeStep_apply (innerOnly : Bool) (ahead : List Lexeme) :
    attributeStep innerOnly ahead =
      if ahead[0]?.any (·.is "#") && (!innerOnly || ahead[1]?.any (·.is "!")) then
        (do return ([← oneAttribute], true) : Parser (List (Attribute Extent) × Bool)) ahead
      else .ok (([], false), ahead) := by
  rw [attributeStep, at?_bind, at?_bind]
  split_ifs <;> rfl

/-- Blocks are read as their attributes, up to a lexeme that begins none. -/
theorem attributes_all {blocks : List Block} (ends : rest[0]?.any (·.is "#") = false) :
    attributes false (all blocks ++ rest) = .ok (placed rest.length blocks, rest) := by
  rw [attributes, many_eq_ok_iff]
  induction blocks with
  | nil => exact .last (by simp [attributeStep_apply, all, placed, ends])
  | cons block blocks ih =>
    have same : all (block :: blocks) ++ rest =
        block.hash :: (block.inside ++ block.closer :: (all blocks ++ rest)) := by
      simp [all, lexemes]
    have taken : attributeStep false (all (block :: blocks) ++ rest) = .ok (([block.attr.map
        (Stretch.extent ((all blocks).length + rest.length))], true), all blocks ++ rest) := by
      rw [same, attributeStep_apply, if_pos (by simp [block.begins]), bind_of_ok (block.reads _),
        List.length_append]
      rfl
    refine .next taken ?_ ih
    rw [same]
    simp only [List.length_cons, List.length_append]
    omega

/-- Attributes that are read are blocks, and inner ones if only those are read. -/
theorem exists_of_attributes {innerOnly : Bool} {ahead : List Lexeme}
    {found : List (Attribute Extent)} (scanned : ∀ lexeme ∈ ahead, lexeme.IsScanned)
    (h : attributes innerOnly ahead = .ok (found, rest)) :
    ∃ blocks, ahead = all blocks ++ rest ∧ found = placed rest.length blocks ∧
      (innerOnly → ∀ block ∈ blocks, block.isInner) ∧
      (innerOnly = false → rest[0]?.any (·.is "#") = false) := by
  rw [attributes, many_eq_ok_iff] at h
  induction h with
  | last taken =>
    rw [attributeStep_apply] at taken
    split_ifs at taken with begins
    · obtain ⟨_, _, _, same⟩ := bind_eq_ok.mp taken
      cases same
    · cases taken
      exact ⟨[], rfl, rfl, by simp, fun outer => by simpa [outer] using begins⟩
  | @next ahead middle left items others taken _ _ ih =>
    rw [attributeStep_apply] at taken
    split_ifs at taken with begins
    · rw [Bool.and_eq_true] at begins
      obtain ⟨hash, rest, is, rfl⟩ := head_of_any begins.1
      obtain ⟨a, _, one, same⟩ := bind_eq_ok.mp taken
      cases same
      obtain ⟨block, whole, rfl⟩ := exists_of_oneAttribute
        (fun lexeme member => scanned lexeme (List.mem_cons_of_mem _ member)) is one
      have inner : innerOnly → block.isInner := by
        rintro rfl
        have second : rest[0]?.any (·.is "!") := by simpa using begins.2
        obtain ⟨bang, rest, bangs, rfl⟩ := head_of_any second
        exact oneAttribute_inner bangs one
      rw [whole] at scanned ⊢
      obtain ⟨blocks, rfl, rfl, all, ends⟩ := ih fun lexeme member =>
        scanned lexeme (List.mem_append_right _ member)
      refine ⟨block :: blocks, by simp [Block.all], by simp [placed], fun only => ?_, ends⟩
      exact List.forall_mem_cons.mpr ⟨inner only, all only⟩
    · cases taken

end Block

end ActorGlue
