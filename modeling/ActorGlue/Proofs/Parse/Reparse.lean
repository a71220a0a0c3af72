import ActorGlue.Proofs.Parse.Blocks

/-!
# Reading an item elsewhere

An item of a file ends with a barrier. Read in front of other lexemes or by itself, with some other
attributes, it is the same item: only the places are counted from another end.
-/

namespace ActorGlue

open Parse

/-- The item with another place and other attributes. -/
def Item.withHead {σ : Type} (place : σ) (attributes : List (Attribute σ)) : Item σ → Item σ
  | .struct item => .struct { item with place, attributes }
  | .impl item => .impl { item with place, attributes }
  | .other item => .other { item with place, attributes }

namespace Parse

section Bodies

variable {kind : String} {ahead left other : List Lexeme}
  (scanned : ∀ lexeme ∈ ahead, lexeme.IsScanned)

include scanned

/-- The braces that end an item end with a barrier, and so they do in front of anything else than a
semicolon. -/
theorem bodyBraces_eq_ok {items : List Unit} {more : Bool} (free : other[0]?.any (·.is ";") = false)
    (h : bodyBraces kind ahead = .ok ((items, more), left)) :
    items = [] ∧ more = false ∧ ∃ taken stop, ahead = taken ++ stop :: left ∧ stop.isBarrier ∧
      bodyBraces kind (taken ++ stop :: other) = .ok (([], false), other) := by
  obtain ⟨found, middle, taken, ended⟩ := bind_eq_ok.mp h
  obtain ⟨rfl, again, opener, inside, closer, rfl, -, closes⟩ := group_eq_ok taken
  have closes : closer.isBarrier := Lexeme.isBarrier_of_closer closes
  have alone : ∀ other, bodyBraces kind (opener :: (inside ++ [closer]) ++ other) = (do
      if kind = "macro" then
        let _ ← eat ";"
      return ([], false) : Parser (List Unit × Bool)) other := fun other => bind_of_ok (again other)
  by_cases invoked : kind = "macro"
  · rw [if_pos invoked, eat_bind] at ended
    simp only [invoked, if_true] at alone
    split_ifs at ended with semicolon
    · obtain ⟨stop, rest, is, rfl⟩ := head_of_any semicolon
      cases ended
      refine ⟨rfl, rfl, opener :: (inside ++ [closer]), stop, rfl,
        Lexeme.isBarrier_of_is (scanned stop (by simp)) is (by decide), ?_⟩
      rw [invoked, alone, eat_bind, if_pos (by simpa using is)]
      rfl
    · cases ended
      refine ⟨rfl, rfl, opener :: inside, closer, by simp, closes, ?_⟩
      have last := alone other
      rw [eat_bind, if_neg (by simp [free]), ← invoked] at last
      simpa [pure_apply] using last
  · simp only [invoked, if_false] at ended alone
    cases ended
    refine ⟨rfl, rfl, opener :: inside, closer, by simp, closes, ?_⟩
    simpa [pure_apply] using alone other

/-- A step that goes on takes some lexemes, and it takes them in front of anything. -/
theorem bodyStep_more {items : List Unit} (h : bodyStep kind ahead = .ok ((items, true), left)) :
    ∃ taken, ahead = taken ++ left ∧
      ∀ other, bodyStep kind (taken ++ other) = .ok ((items, true), other) := by
  cases ahead with
  | nil => cases h
  | cons lexeme rest =>
    rw [bodyStep_cons, bodyStepAt] at h
    split_ifs at h with ends braces opens closes
    · cases h
    · have free : ([] : List Lexeme)[0]?.any (·.is ";") = false := rfl
      obtain ⟨-, more, -⟩ := bodyBraces_eq_ok scanned free h
      cases more
    · obtain ⟨found, _, taken, same⟩ := bind_eq_ok.mp h
      cases same
      obtain ⟨whole, again, opener, inside, closer, rfl, -⟩ := group_eq_ok taken
      obtain ⟨rfl, -⟩ := List.cons.inj whole
      refine ⟨_, whole, fun other => ?_⟩
      rw [List.cons_append, bodyStep_cons, bodyStepAt, if_neg ends, if_neg braces, if_pos opens,
        ← List.cons_append, bind_of_ok (again other)]
      rfl
    · cases h
    · cases h
      refine ⟨[lexeme], rfl, fun other => ?_⟩
      rw [List.singleton_append, bodyStep_cons, bodyStepAt, if_neg ends, if_neg braces,
        if_neg opens, if_neg closes]
      rfl

/-- The last step ends with a barrier, and it is the last step elsewhere too. -/
theorem bodyStep_last {items : List Unit} (free : other[0]?.any (·.is ";") = false)
    (h : bodyStep kind ahead = .ok ((items, false), left)) :
    items = [] ∧ ∃ taken stop, ahead = taken ++ stop :: left ∧ stop.isBarrier ∧
      bodyStep kind (taken ++ stop :: other) = .ok (([], false), other) := by
  cases ahead with
  | nil => cases h
  | cons lexeme rest =>
    rw [bodyStep_cons, bodyStepAt] at h
    split_ifs at h with ends braces opens closes
    · cases h
      refine ⟨rfl, [], lexeme, rfl, ?_, ?_⟩
      · simp only [Lexeme.isPunct, Bool.and_eq_true, decide_eq_true_eq] at ends
        simp [Lexeme.isBarrier, Lexeme.isPunctOf, ends]
      · rw [List.nil_append, bodyStep_cons, bodyStepAt, if_pos ends]
        rfl
    · obtain ⟨rfl, -, taken, stop, same, barrier, alone⟩ := bodyBraces_eq_ok scanned free h
      refine ⟨rfl, taken, stop, same, barrier, ?_⟩
      have first : ∃ rest, taken ++ stop :: other = lexeme :: rest := by
        cases taken with
        | nil => exact ⟨other, by rw [← (List.cons.inj same).1, List.nil_append]⟩
        | cons head tail => exact ⟨_, by rw [(List.cons.inj same).1, List.cons_append]⟩
      obtain ⟨rest, first⟩ := first
      rw [first] at alone ⊢
      rw [bodyStep_cons, bodyStepAt, if_neg ends, if_pos braces, alone]
    · obtain ⟨found, _, taken, same⟩ := bind_eq_ok.mp h
      cases same
    · cases h
    · cases h

/-- The body of an item ends with a barrier, and it is a body elsewhere too. -/
theorem itemBody_eq_ok {value : Unit} (free : other[0]?.any (·.is ";") = false)
    (h : itemBody kind ahead = .ok (value, left)) :
    ∃ taken stop, ahead = taken ++ stop :: left ∧ stop.isBarrier ∧
      itemBody kind (taken ++ stop :: other) = .ok ((), other) := by
  rw [itemBody] at h
  obtain ⟨found, middle, steps, same⟩ := bind_eq_ok.mp h
  cases same
  suffices again : ∃ taken stop, ahead = taken ++ stop :: left ∧ stop.isBarrier ∧
      ∃ found, Repeats (bodyStep kind) (taken ++ stop :: other) found other by
    obtain ⟨taken, stop, whole, barrier, found, alone⟩ := again
    refine ⟨taken, stop, whole, barrier, ?_⟩
    rw [itemBody]
    exact bind_of_ok (many_eq_ok_iff.mpr alone)
  replace steps := many_eq_ok_iff.mp steps
  clear h
  induction steps with
  | last taken =>
    obtain ⟨-, taken, stop, whole, barrier, alone⟩ := bodyStep_last scanned free taken
    exact ⟨taken, stop, whole, barrier, _, .last alone⟩
  | @next _ _ _ items _ taken shorter rest ih =>
    obtain ⟨front, rfl, again⟩ := bodyStep_more scanned taken
    obtain ⟨back, stop, rfl, barrier, found, alone⟩ :=
      ih fun lexeme found => scanned lexeme (List.mem_append_right _ found)
    refine ⟨front ++ back, stop, by simp, barrier, items ++ found, ?_⟩
    rw [List.append_assoc]
    refine .next (again _) ?_ alone
    simp only [List.length_append, List.length_cons] at shorter ⊢
    omega

end Bodies

end Parse

variable {passed rest : List Lexeme} {keyword stop lexeme : Lexeme} {α β : Type} {parser : Parser α}
  {text wanted : α → String} {next : α → Parser β}

namespace Window

variable {w : Window}

theorem startsImpl_stop (rest : List Lexeme) : startsImpl (w.stop :: rest) = false := by
  have first : w.stop.text ≠ "unsafe" := stop_ne (by decide)
  have second : w.stop.text ≠ "default" := stop_ne (by decide)
  simp [startsImpl, stop_isIdent, first, second]

theorem startsImpl_left (ahead : List Lexeme) :
    startsImpl (w.left ahead) = startsImpl (w.right ahead) := by
  have first : w.stop.is "impl" = false := stop_is (by decide)
  have second : w.stop.is "unsafe" = false := stop_is (by decide)
  rcases ahead with _ | ⟨lexeme, _ | ⟨next, _ | ⟨last, rest⟩⟩⟩
  · rw [left_nil, right_nil, startsImpl_stop, startsImpl_stop]
  · simp only [left_cons, left_nil, right_cons, right_nil, startsImpl, List.head?_cons,
      Option.any_some, first, second, Bool.and_false, Bool.false_and]
  · rfl
  · rfl

theorem splitQualifiers_left (passed ahead : List Lexeme) :
    ∃ found after, after.length ≤ ahead.length ∧
      splitQualifiers passed (w.left ahead) = (found, w.left after) ∧
      splitQualifiers passed (w.right ahead) = (found, w.right after) := by
  induction ahead generalizing passed with
  | nil =>
    refine ⟨passed, [], le_rfl, ?_, ?_⟩ <;>
      simp [splitQualifiers, stop_kind, stop_isIdent]
  | cons lexeme rest ih =>
    have next : (w.right rest).head? = (w.left rest).head? := by cases rest <;> rfl
    simp only [left_cons, right_cons, splitQualifiers, next]
    split
    · obtain ⟨found, after, le, same⟩ := ih (lexeme :: passed)
      exact ⟨found, after, by simp only [List.length_cons]; omega, same⟩
    · exact ⟨passed, lexeme :: rest, le_rfl, rfl, rfl⟩

theorem itemKind_left (passed : List Lexeme) (keyword : Lexeme) (rest : List Lexeme) :
    itemKind passed keyword (w.left rest) = itemKind passed keyword (w.right rest) := by
  cases rest <;> rfl

/-- The keyword of an item stands inside of the window. -/
theorem keyword_right {ahead : List Lexeme}
    (known : (semicolonKinds ++ bodyKinds).contains (itemKind passed keyword rest).1)
    (found : splitQualifiers [] (w.left ahead) = (passed, keyword :: rest)) :
    0 < ahead.length ∧ ∃ rest', splitQualifiers [] (w.right ahead) = (passed, keyword :: rest') ∧
      itemKind passed keyword rest' = itemKind passed keyword rest := by
  obtain ⟨_, _ | ⟨lexeme, after⟩, le, left, right⟩ := w.splitQualifiers_left [] ahead
  · obtain ⟨rfl, same⟩ := Prod.mk.inj (left.symm.trans found)
    obtain ⟨rfl, rfl⟩ := List.cons.inj same
    have braces : w.stop.isPunct "\x7b" = false := stop_isPunct (by decide)
    have kind (passed : List Lexeme) : (itemKind passed w.stop w.tail).1 = w.stop.text := by
      simp [itemKind, braces, stop_kind]
    have text := w.stop_text
    simp only [barriers, List.contains_eq_mem, List.mem_cons, List.not_mem_nil, or_false,
      decide_eq_true_eq] at text
    rw [kind] at known
    obtain same | same | same | same := text <;> rw [same] at known <;>
      exact absurd known (by decide)
  · obtain ⟨rfl, same⟩ := Prod.mk.inj (left.symm.trans found)
    obtain ⟨rfl, rfl⟩ := List.cons.inj same
    exact ⟨Nat.lt_of_lt_of_le (Nat.succ_pos _) le, w.right after, right,
      (itemKind_left _ _ _).symm⟩

end Window

namespace Parse

theorem itemRest_cons (before : Nat) (attributes : List (Attribute Extent))
    (visibility : Visibility Extent) (lexeme : Lexeme) (rest : List Lexeme) :
    itemRest before attributes visibility (lexeme :: rest) =
      (if lexeme.isIdent "struct" then
        return .struct (← structItem before attributes visibility)
      else if startsImpl (lexeme :: rest) then return .impl (← implItem before attributes)
      else return .other (← otherItem before attributes visibility) : Parser (Item Extent))
        (lexeme :: rest) :=
  rfl

section Alone

variable {before : Nat} {attributes : List (Attribute Extent)} {visibility : Visibility Extent}
  {ahead left other : List Lexeme}

/-- An item after its visibility: it ends with a barrier, and in front of other lexemes it is the
same item, whatever place and attributes it is given. -/
def EndsAlone (other : List Lexeme) (before : Nat) (attributes : List (Attribute Extent))
    (visibility : Visibility Extent) (ahead left : List Lexeme) (item : Item Extent) : Prop :=
  ∃ inside stop, ahead = inside ++ stop :: left ∧ stop.isBarrier ∧
    ∀ size, inside.length ≤ size → ∀ seen : Visibility (Stretch size),
      visibility = seen.map (Stretch.extent (left.length + 1)) →
      ∃ found : Item (Stretch size),
        item = (found.map (Stretch.extent (left.length + 1))).withHead ⟨before, left.length⟩
          attributes ∧
        ∀ before attributes,
          itemRest before attributes (seen.map (Stretch.extent (other.length + 1)))
              (inside ++ stop :: other) =
            .ok ((found.map (Stretch.extent (other.length + 1))).withHead ⟨before, other.length⟩
              attributes, other)

theorem exists_of_expect [Shrinks parser] {value : β} (scanned : ∀ lexeme ∈ ahead, lexeme.IsScanned)
    (closes : ∀ found, Window.barriers.contains (text found))
    (h : (do
      let found ← parser
      expect (text found) (wanted found)
      next found : Parser β) ahead = .ok (value, left)) :
    ∃ found inside stop rest, ahead = inside ++ stop :: rest ∧ stop.isBarrier ∧
      stop.is (text found) ∧ parser ahead = .ok (found, stop :: rest) ∧
      next found rest = .ok (value, left) := by
  obtain ⟨found, middle, taken, ended⟩ := bind_eq_ok.mp h
  obtain ⟨_, rest, expected, last⟩ := bind_eq_ok.mp ended
  obtain ⟨stop, is, rfl⟩ := expect_eq_ok expected
  obtain ⟨inside, rfl⟩ := Shrinks.suffix taken
  exact ⟨found, inside, stop, rest, rfl,
    Lexeme.isBarrier_of_is (scanned stop (by simp)) is (closes found), is, taken, last⟩

theorem expect_of_ok {found : α} (taken : parser ahead = .ok (found, stop :: left))
    (is : stop.is (text found)) :
    (do
      let found ← parser
      expect (text found) (wanted found)
      next found : Parser β) ahead = next found left := by
  rw [bind_of_ok taken, expect_bind, if_pos (by simpa using is), List.drop_one, List.tail_cons]

/-- A stretch of one lexeme, for a head that is not known yet. -/
def Stretch.dummy {size : Nat} (fits : 1 ≤ size) : Stretch size :=
  ⟨1, 0, fits, Nat.zero_lt_one⟩

theorem exists_inside {inside : List Lexeme} (whole : lexeme :: rest = inside ++ stop :: left)
    (apart : lexeme ≠ stop) : ∃ inner, inside = lexeme :: inner := by
  cases inside with
  | nil => exact absurd (List.cons.inj whole).1 apart
  | cons first inner => exact ⟨inner, by rw [(List.cons.inj whole).1]⟩

theorem structItem_alone {item : StructItem Extent}
    (scanned : ∀ found ∈ lexeme :: rest, found.IsScanned) (starts : lexeme.isIdent "struct")
    (h : structItem before attributes visibility (lexeme :: rest) = .ok (item, left)) :
    EndsAlone other before attributes visibility (lexeme :: rest) left (.struct item) := by
  rw [structItem] at h
  obtain ⟨front, inside, stop, _, whole, barrier, is, taken, same⟩ := exists_of_expect scanned
    (fun front => by cases front.2.2.2 <;> decide) h
  cases same
  refine ⟨inside, stop, whole, barrier, fun size fits seen same => ?_⟩
  let w : Window := ⟨size, stop, barrier, left, other⟩
  obtain ⟨inner, rfl⟩ := exists_inside whole fun same => by
    rw [same, w.stop_isIdent] at starts
    cases starts
  rw [whole] at taken
  obtain ⟨found, rfl, again⟩ := Window.Sim.structFront (w := w) fits front [] taken
  refine ⟨.struct ⟨Stretch.dummy (by simp at fits; omega), [], seen, found.1, found.2.1,
    found.2.2.1, found.2.2.2⟩, by rw [same]; rfl, fun before attributes => ?_⟩
  rw [List.cons_append, itemRest_cons, if_pos starts]
  refine bind_of_ok ?_
  rw [structItem]
  exact expect_of_ok again is

theorem implItem_alone {item : ImplItem Extent}
    (scanned : ∀ found ∈ lexeme :: rest, found.IsScanned) (plain : lexeme.isIdent "struct" = false)
    (starts : startsImpl (lexeme :: rest)) (calm : left[0]?.any (·.is "!") = false)
    (calm' : other[0]?.any (·.is "!") = false)
    (h : implItem before attributes (lexeme :: rest) = .ok (item, left)) :
    EndsAlone other before attributes visibility (lexeme :: rest) left (.impl item) := by
  rw [implItem] at h
  obtain ⟨front, inside, stop, _, whole, barrier, is, taken, same⟩ :=
    exists_of_expect scanned (fun _ => by decide) h
  cases same
  refine ⟨inside, stop, whole, barrier, fun size fits seen _ => ?_⟩
  let w : Window := ⟨size, stop, barrier, left, other⟩
  obtain ⟨inner, rfl⟩ := exists_inside whole fun same => by
    rw [same, w.startsImpl_stop] at starts
    cases starts
  rw [whole] at taken starts
  replace starts : startsImpl (w.right (lexeme :: inner)) := by
    rw [← w.startsImpl_left]
    exact starts
  obtain ⟨found, rfl, again⟩ := Window.Sim.implFront (w := w) ⟨calm, calm'⟩ fits front [] taken
  refine ⟨.impl ⟨Stretch.dummy (by simp at fits; omega), [], found.2.1, found.2.2.1.2,
    found.2.2.1.1, found.2.2.2.1, found.1, found.2.2.2.2⟩, rfl, fun before attributes => ?_⟩
  rw [List.cons_append, itemRest_cons, if_neg (by simp [plain]),
    if_pos (show startsImpl (lexeme :: (inner ++ stop :: other)) from starts)]
  refine bind_of_ok ?_
  rw [implItem]
  exact expect_of_ok again is

theorem otherRest_alone {item : OtherItem Extent} (scanned : ∀ lexeme ∈ ahead, lexeme.IsScanned)
    (free : other[0]?.any (·.is ";") = false)
    (h : otherRest before attributes visibility passed keyword rest ahead = .ok (item, left)) :
    (semicolonKinds ++ bodyKinds).contains (itemKind passed keyword rest).1 ∧
      ∃ inside stop, ahead = inside ++ stop :: left ∧ stop.isBarrier ∧
        item = ⟨⟨before, left.length⟩, attributes, visibility, (itemKind passed keyword rest).1,
          (itemKind passed keyword rest).2⟩ ∧
        ∀ before attributes visibility rest',
          itemKind passed keyword rest' = itemKind passed keyword rest →
          otherRest before attributes visibility passed keyword rest' (inside ++ stop :: other) =
            .ok (⟨⟨before, other.length⟩, attributes, visibility, (itemKind passed keyword rest).1,
              (itemKind passed keyword rest).2⟩, other) := by
  unfold otherRest at h ⊢
  generalize itemKind passed keyword rest = kind at h ⊢
  obtain ⟨kind, name⟩ := kind
  dsimp only at h
  split_ifs at h with semicolon body
  · obtain ⟨found, inside, stop, _, whole, barrier, is, taken, same⟩ :=
      exists_of_expect scanned (fun _ => by decide) h
    cases same
    refine ⟨?_, inside, stop, whole, barrier, rfl, ?_⟩
    · simpa using .inl (List.elem_iff.mp semicolon)
    intro before attributes visibility rest' same
    rw [same]
    dsimp only
    rw [whole] at taken
    obtain ⟨_, -, again⟩ := Window.Sim.collectUntil
      (w := ⟨inside.length, stop, barrier, left, other⟩) found [] taken
    rw [if_pos semicolon]
    exact expect_of_ok again is
  · obtain ⟨_, middle, taken, same⟩ := bind_eq_ok.mp h
    obtain ⟨inside, stop, rfl, barrier, again⟩ := itemBody_eq_ok scanned free taken
    cases same
    refine ⟨?_, inside, stop, rfl, barrier, rfl, ?_⟩
    · simpa using .inr (List.elem_iff.mp body)
    intro before attributes visibility rest' same
    rw [same]
    dsimp only
    rw [if_neg semicolon, if_pos body]
    exact bind_of_ok again
  · cases h

theorem otherItem_alone {item : OtherItem Extent}
    (scanned : ∀ found ∈ lexeme :: rest, found.IsScanned) (plain : lexeme.isIdent "struct" = false)
    (starts : startsImpl (lexeme :: rest) = false) (free : other[0]?.any (·.is ";") = false)
    (h : otherItem before attributes visibility (lexeme :: rest) = .ok (item, left)) :
    EndsAlone other before attributes visibility (lexeme :: rest) left (.other item) := by
  obtain ⟨passed, keyword, later, split, taken⟩ := otherItem_eq_ok.mp h
  obtain ⟨known, inside, stop, whole, barrier, rfl, alone⟩ := otherRest_alone scanned free taken
  refine ⟨inside, stop, whole, barrier, fun size fits seen same => ?_⟩
  let w : Window := ⟨size, stop, barrier, left, other⟩
  rw [whole] at split starts
  obtain ⟨nonempty, rest', split', same'⟩ := w.keyword_right known split
  refine ⟨.other ⟨Stretch.dummy (by omega), [], seen, (itemKind passed keyword later).1,
    (itemKind passed keyword later).2⟩, by rw [same]; rfl, fun before attributes => ?_⟩
  cases inside with
  | nil => cases nonempty
  | cons first inner =>
    obtain ⟨rfl, -⟩ := List.cons.inj whole
    rw [List.cons_append, itemRest_cons, if_neg (by simp [plain]), if_neg]
    · refine bind_of_ok (otherItem_eq_ok.mpr ⟨passed, keyword, rest', split', ?_⟩)
      exact alone _ _ _ _ same'
    · have same : startsImpl (lexeme :: (inner ++ stop :: other)) = false :=
        (w.startsImpl_left (lexeme :: inner)).symm.trans starts
      simp [same]

end Alone

end Parse

end ActorGlue
