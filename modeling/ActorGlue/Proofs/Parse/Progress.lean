import ActorGlue.Parse.Item
import ActorGlue.Proofs.Parse.Brackets
import Mathlib

/-!
# Parsers only take lexemes

What a parser leaves is the end of what it was given. The fact is a class, so that it follows for
a parser from the parsers that it is made of; a parser that always takes a lexeme progresses.
-/

namespace ActorGlue.Parse

variable {ahead left found : List Lexeme} (wanted : String) {complaint : Complaint}
  {distance before fuel depth : Nat} {text : String} {stops : List String} {angles : Bool}
  {start rest inside : List Lexeme}

/-- The parser leaves the last of the lexemes it was given. -/
class Shrinks {α : Type} (parser : Parser α) : Prop where
  suffix : ∀ {ahead left : List Lexeme} {value : α},
    parser ahead = .ok (value, left) → left <:+ ahead

/-- The parser takes a lexeme. -/
class Progresses {α : Type} (parser : Parser α) : Prop where
  shorter : ∀ {ahead left : List Lexeme} {value : α},
    parser ahead = .ok (value, left) → left.length < ahead.length

section Runs

variable {α β : Type} {parser : Parser α} {next : α → Parser β} {ahead : List Lexeme}

theorem bind_eq_ok {value : β} :
    (parser >>= next) ahead = .ok (value, left) ↔
      ∃ found middle, parser ahead = .ok (found, middle) ∧
        next found middle = .ok (value, left) := by
  change (parser ahead).bind (fun found => next found.1 found.2) = _ ↔ _
  cases parser ahead with
  | error complaint => simp [Except.bind]
  | ok found =>
    obtain ⟨first, rest⟩ := found
    simp [Except.bind]

theorem pure_apply (value : α) : (pure value : Parser α) ahead = .ok (value, ahead) :=
  rfl

theorem bind_of_error (h : parser ahead = .error complaint) :
    (parser >>= next) ahead = .error complaint := by
  change (parser ahead).bind (fun found => next found.1 found.2) = _
  rw [h]
  rfl

theorem bind_of_ok {found : α} {middle : List Lexeme}
    (h : parser ahead = .ok (found, middle)) :
    (parser >>= next) ahead = next found middle := by
  change (parser ahead).bind (fun found => next found.1 found.2) = _
  rw [h]
  rfl

end Runs

section Steps

/-! ## What the first steps do -/

variable {α : Type} {kind : Token.Kind} {count : Nat}

theorem get_bind (next : List Lexeme → Parser α) : (get >>= next) ahead = next ahead ahead :=
  rfl

theorem mark_bind (next : Nat → Parser α) : (mark >>= next) ahead = next ahead.length ahead :=
  rfl

theorem extentFrom_bind (next : Extent → Parser α) :
    (extentFrom before >>= next) ahead = next ⟨before, ahead.length⟩ ahead :=
  rfl

theorem peekAt_bind (next : Option Lexeme → Parser α) :
    (peekAt distance >>= next) ahead = next ahead[distance]? ahead :=
  rfl

theorem peek_bind (next : Option Lexeme → Parser α) :
    (peek >>= next) ahead = next ahead[0]? ahead :=
  rfl

theorem at?_bind (next : Bool → Parser α) :
    (at? text distance >>= next) ahead = next (ahead[distance]?.any (·.is text)) ahead :=
  rfl

theorem kindAt?_bind (next : Bool → Parser α) :
    (kindAt? kind distance >>= next) ahead =
      next (ahead[distance]?.any (·.kind = kind)) ahead :=
  rfl

theorem skip_bind (next : Unit → Parser α) :
    (skip count >>= next) ahead = next () (ahead.drop count) :=
  rfl

theorem eat_apply :
    eat text ahead =
      if ahead[0]?.any (·.is text) then .ok (true, ahead.drop 1) else .ok (false, ahead) := by
  rw [eat, at?_bind]
  split <;> rfl

theorem eat_bind (next : Bool → Parser α) :
    (eat text >>= next) ahead =
      if ahead[0]?.any (·.is text) then next true (ahead.drop 1) else next false ahead := by
  split
  · rename_i found
    exact bind_of_ok (by rw [eat_apply, if_pos found])
  · rename_i missing
    exact bind_of_ok (by rw [eat_apply, if_neg missing])

theorem expect_apply :
    expect text wanted ahead =
      if ahead[0]?.any (·.is text) then .ok ((), ahead.drop 1) else refuse wanted ahead := by
  rw [expect, eat_bind]
  split <;> rfl

theorem expect_bind (next : Unit → Parser α) :
    (expect text wanted >>= next) ahead =
      if ahead[0]?.any (·.is text) then next () (ahead.drop 1) else refuse wanted ahead := by
  split
  · rename_i found
    exact bind_of_ok (by rw [expect_apply, if_pos found])
  · rename_i missing
    exact bind_of_error (by rw [expect_apply, if_neg missing]; rfl)

end Steps

section Instances

variable {α β : Type} {parser : Parser α} {next : α → Parser β} {condition : Prop}
  {yes no : Parser α}

instance shrinks_pure (value : α) : Shrinks (pure value : Parser α) where
  suffix h := by cases h; exact List.suffix_rfl

instance shrinks_throw : Shrinks (throw complaint : Parser α) where
  suffix h := by cases h

instance shrinks_bind [Shrinks parser] [∀ value, Shrinks (next value)] :
    Shrinks (parser >>= next) where
  suffix h := by
    obtain ⟨found, middle, first, second⟩ := bind_eq_ok.mp h
    exact (Shrinks.suffix second).trans (Shrinks.suffix first)

instance (priority := low) shrinks_option (parser : Parser (Option Lexeme)) [Shrinks parser]
    (next : Option Lexeme → Parser α) [Shrinks (next none)]
    [∀ lexeme, Shrinks (next (some lexeme))] : Shrinks (parser >>= next) := by
  refine @shrinks_bind _ _ _ _ inferInstance fun first => ?_
  cases first <;> infer_instance

instance (priority := low) shrinks_list (parser : Parser (List Lexeme)) [Shrinks parser]
    (next : List Lexeme → Parser α) [Shrinks (next [])]
    [∀ lexeme rest, Shrinks (next (lexeme :: rest))] : Shrinks (parser >>= next) := by
  refine @shrinks_bind _ _ _ _ inferInstance fun ahead => ?_
  cases ahead <;> infer_instance

instance shrinks_ite [Decidable condition] [Shrinks yes] [Shrinks no] :
    Shrinks (if condition then yes else no) := by
  split <;> infer_instance

instance shrinks_get : Shrinks (get : Parser (List Lexeme)) where
  suffix h := by cases h; exact List.suffix_rfl

instance shrinks_skip (count : Nat) : Shrinks (skip count) where
  suffix h := by cases h; exact List.drop_suffix _ _

instance : Shrinks mark := by unfold mark; infer_instance

instance : Shrinks (peekAt distance) := by unfold peekAt; infer_instance

instance : Shrinks peek := by unfold peek; infer_instance

instance : Shrinks (at? text distance) := by
  unfold at?; infer_instance

instance (kind : Token.Kind) : Shrinks (kindAt? kind distance) := by
  unfold kindAt?; infer_instance

instance : Shrinks (extentFrom before) := by unfold extentFrom; infer_instance

instance : Shrinks (refuse wanted : Parser α) := by
  unfold refuse; infer_instance

instance : Shrinks (eat text) := by unfold eat; infer_instance

instance : Shrinks (readSince start) := by
  unfold readSince; infer_instance

instance : Shrinks (advance wanted) where
  suffix {ahead left value} h := by
    cases ahead with
    | nil => cases h
    | cons first rest => cases h; exact List.suffix_cons _ _

theorem expectIdent_eq_ok {wanted : String} {value : String}
    (h : expectIdent wanted ahead = .ok (value, left)) :
    ∃ first, first.kind = .ident ∧ first.text = value ∧ ahead = first :: left := by
  cases ahead with
  | nil => cases h
  | cons first rest =>
    rw [expectIdent, get_bind] at h
    dsimp only at h
    split_ifs at h with word
    · cases h
      exact ⟨first, word, rfl, rfl⟩
    · cases h

instance : Shrinks (expectIdent wanted) where
  suffix h := by
    obtain ⟨first, -, -, rfl⟩ := expectIdent_eq_ok h
    exact List.suffix_cons _ _

instance : Progresses (expectIdent wanted) where
  shorter h := by
    obtain ⟨first, -, -, rfl⟩ := expectIdent_eq_ok h
    simp

theorem head_of_any {test : Lexeme → Bool} (h : ahead[0]?.any test) :
    ∃ first rest, test first ∧ ahead = first :: rest := by
  cases ahead with
  | nil => simp at h
  | cons first rest => exact ⟨first, rest, by simpa using h, rfl⟩

/-- Expecting a mark takes it. -/
theorem expect_eq_ok {wanted : String} {value : Unit}
    (h : expect text wanted ahead = .ok (value, left)) :
    ∃ first, first.is text ∧ ahead = first :: left := by
  rw [expect_apply] at h
  split_ifs at h with found
  · obtain ⟨first, rest, is, rfl⟩ := head_of_any found
    cases h
    exact ⟨first, is, rfl⟩
  · cases h

instance {wanted : String} : Shrinks (expect text wanted) where
  suffix h := by
    obtain ⟨first, -, rfl⟩ := expect_eq_ok h
    exact List.suffix_cons _ _

instance {wanted : String} : Progresses (expect text wanted) where
  shorter h := by
    obtain ⟨first, -, rfl⟩ := expect_eq_ok h
    simp

instance progresses_bind_left [Progresses parser] [∀ value, Shrinks (next value)] :
    Progresses (parser >>= next) where
  shorter h := by
    obtain ⟨found, middle, first, second⟩ := bind_eq_ok.mp h
    exact Nat.lt_of_le_of_lt (Shrinks.suffix second).length_le (Progresses.shorter first)

instance progresses_bind_right [Shrinks parser] [∀ value, Progresses (next value)] :
    Progresses (parser >>= next) where
  shorter h := by
    obtain ⟨found, middle, first, second⟩ := bind_eq_ok.mp h
    exact Nat.lt_of_lt_of_le (Progresses.shorter second) (Shrinks.suffix first).length_le

instance progresses_throw : Progresses (throw complaint : Parser α) where
  shorter h := by cases h

instance progresses_refuse : Progresses (refuse wanted : Parser α) where
  shorter h := by cases h

instance progresses_ite [Decidable condition] [Progresses yes] [Progresses no] :
    Progresses (if condition then yes else no) := by
  split <;> infer_instance

instance shrinks_loopUpTo {σ : Type} (step : σ → Parser (List α × Option σ))
    [shrinks : ∀ state, Shrinks (step state)] (state : σ) : Shrinks (loopUpTo step fuel state) := by
  induction fuel generalizing state with
  | zero => exact shrinks_throw
  | succ fuel ih =>
    unfold loopUpTo
    refine @shrinks_bind _ _ _ _ (shrinks state) ?_
    rintro ⟨items, _ | next⟩ <;> dsimp only <;> infer_instance

instance shrinks_loop {σ : Type} (step : σ → Parser (List α × Option σ))
    [∀ state, Shrinks (step state)] (state : σ) : Shrinks (loop step state) := by
  unfold loop; infer_instance

instance [Shrinks step] (state : Unit) : Shrinks (manyStep step state) := by
  unfold manyStep; infer_instance

instance shrinks_many (step : Parser (List α × Bool)) [Shrinks step] : Shrinks (many step) := by
  unfold many; infer_instance

instance [Shrinks done] {item : Parser α} [Shrinks item] :
    Shrinks (separatedStep separator done item) := by
  unfold separatedStep; infer_instance

instance shrinks_separated (separator : String) (done : Parser Bool) (item : Parser α)
    [Shrinks done] [Shrinks item] : Shrinks (separated separator done item) := by
  unfold separated; infer_instance

end Instances

section Repetitions

/-! ## Repetitions -/

variable {α : Type} {step : Parser (List α × Bool)} {items : List α}

theorem many_apply (ahead : List Lexeme) :
    many step ahead = loopUpTo (manyStep step) (ahead.length + 1) () ahead :=
  rfl

theorem manyStep_of_ok {more : Bool} (taken : step ahead = .ok ((items, more), left)) :
    manyStep step () ahead = .ok ((items, if more then some () else none), left) :=
  bind_of_ok taken

theorem manyStep_eq_ok {next : Option Unit}
    (taken : manyStep step () ahead = .ok ((items, next), left)) :
    step ahead = .ok ((items, next.isSome), left) := by
  obtain ⟨⟨found, more⟩, middle, first, same⟩ := bind_eq_ok.mp taken
  cases same
  cases more <;> exact first

/-- A step that goes on without taking a lexeme goes on for ever. -/
theorem endless_of_stuck (taken : step ahead = .ok ((items, true), ahead)) (fuel : Nat) :
    loopUpTo (manyStep step) fuel () ahead = .error .endless := by
  induction fuel with
  | zero => rfl
  | succ fuel ih => exact (bind_of_ok (manyStep_of_ok taken)).trans (bind_of_error ih)

/-- A repetition that ends: a last step, after steps that each take a lexeme. -/
inductive Repeats (step : Parser (List α × Bool)) : List Lexeme → List α → List Lexeme → Prop where
  | last {ahead left : List Lexeme} {items : List α}
      (taken : step ahead = .ok ((items, false), left)) : Repeats step ahead items left
  | next {ahead middle left : List Lexeme} {items others : List α}
      (taken : step ahead = .ok ((items, true), middle)) (shorter : middle.length < ahead.length)
      (rest : Repeats step middle others left) : Repeats step ahead (items ++ others) left

theorem repeats_of_loopUpTo [Shrinks step] {found : List α}
    (h : loopUpTo (manyStep step) fuel () ahead = .ok (found, left)) :
    Repeats step ahead found left := by
  induction fuel generalizing ahead found with
  | zero => cases h
  | succ fuel ih =>
    rw [loopUpTo] at h
    obtain ⟨⟨items, next⟩, middle, taken, rest⟩ := bind_eq_ok.mp h
    have taken := manyStep_eq_ok taken
    cases next with
    | none => cases rest; exact .last taken
    | some next =>
      obtain ⟨others, last, again, same⟩ := bind_eq_ok.mp rest
      cases same
      refine .next taken ?_ (ih again)
      refine lt_of_le_of_ne (Shrinks.suffix taken).length_le fun same => ?_
      obtain rfl := (Shrinks.suffix taken).eq_of_length same
      rw [endless_of_stuck taken] at again
      cases again

theorem loopUpTo_of_repeats {found : List α} (h : Repeats step ahead found left)
    (enough : ahead.length < fuel) :
    loopUpTo (manyStep step) fuel () ahead = .ok (found, left) := by
  induction h generalizing fuel with
  | last taken =>
    obtain ⟨fuel, rfl⟩ := Nat.exists_eq_succ_of_ne_zero (Nat.ne_of_gt (Nat.zero_lt_of_lt enough))
    exact bind_of_ok (manyStep_of_ok taken)
  | next taken shorter rest ih =>
    obtain ⟨fuel, rfl⟩ := Nat.exists_eq_succ_of_ne_zero (Nat.ne_of_gt (Nat.zero_lt_of_lt enough))
    exact (bind_of_ok (manyStep_of_ok taken)).trans (bind_of_ok (ih (by omega)))

/-- The repetitions that end are those in which every step but the last takes a lexeme. -/
theorem many_eq_ok_iff [Shrinks step] {found : List α} :
    many step ahead = .ok (found, left) ↔ Repeats step ahead found left := by
  rw [many_apply]
  exact ⟨repeats_of_loopUpTo, fun h => loopUpTo_of_repeats h (Nat.lt_succ_self _)⟩

instance [Shrinks step] [Progresses step] : Progresses (many step) where
  shorter h := by
    cases many_eq_ok_iff.mp h with
    | last taken => exact Progresses.shorter taken
    | next taken shorter rest =>
      have behind := Shrinks.suffix (many_eq_ok_iff.mpr rest)
      exact Nat.lt_of_le_of_lt behind.length_le shorter

end Repetitions

section Groups

/-! ## Groups are split off by themselves -/

/-- A group goes as far as the lexemes behind its opening delimiter. -/
theorem group_of_ends {opener : Lexeme} {closer : String} (opens : opener.closer? = some closer)
    {split : Except GroupFault (List Lexeme × List Lexeme)} :
    GroupEnds closer [] rest split → group (opener :: rest) =
      match split with
      | .ok (inside, after) => .ok (opener :: inside, after)
      | .error (.mismatched text ahead) => .error (.mismatched text ahead)
      | .error .unclosed => .error (.unclosed opener.text (rest.length + 1)) := by
  intro ends
  have parts : splitOwed [closer] rest = split := ends.splitOwed_eq
  rw [group, get_bind]
  simp only [opens, parts]
  rcases split with (_ | _) | parts <;> rfl

theorem group_of_balanced {opener close : Lexeme} (opens : opener.closer? = some close.text)
    (closes : close.isCloser) (balanced : Balanced inside) (rest : List Lexeme) :
    group (opener :: (inside ++ close :: rest)) = .ok (opener :: (inside ++ [close]), rest) :=
  group_of_ends opens (.closed balanced closes rfl)

theorem exists_of_group (h : group ahead = .ok (found, left)) :
    ∃ opener inside close, ahead = opener :: (inside ++ close :: left) ∧
      found = opener :: (inside ++ [close]) ∧ opener.closer? = some close.text ∧
      close.isCloser ∧ Balanced inside := by
  cases ahead with
  | nil => cases h
  | cons opener rest =>
    cases opens : opener.closer? with
    | none => simp only [group, get_bind, opens] at h; cases h
    | some closer =>
      obtain ⟨split, ends⟩ := exists_groupEnds closer [] rest
      rw [group_of_ends opens ends] at h
      cases ends with
      | closed balanced closes fits =>
        cases h
        exact ⟨opener, _, _, rfl, rfl, by rw [opens, fits], closes, balanced⟩
      | wrong => cases h
      | missing => cases h

/-- A group is taken in front of anything: an opening delimiter, and what follows through a closing
one. -/
theorem group_eq_ok (h : group ahead = .ok (found, left)) :
    ahead = found ++ left ∧ (∀ other, group (found ++ other) = .ok (found, other)) ∧
      ∃ opener inside closer, found = opener :: (inside ++ [closer]) ∧
        opener.closer?.isSome ∧ closer.isCloser := by
  obtain ⟨opener, inside, close, rfl, rfl, opens, closes, balanced⟩ := exists_of_group h
  refine ⟨by simp, fun other => ?_, opener, inside, close, rfl, by simp [opens], closes⟩
  simpa using group_of_balanced opens closes balanced other

instance : Shrinks group where
  suffix h := by
    obtain ⟨rfl, -⟩ := group_eq_ok h
    exact List.suffix_append _ _

instance : Progresses group where
  shorter h := by
    obtain ⟨rfl, -, opener, inside, closer, rfl, -⟩ := group_eq_ok h
    simp only [List.cons_append, List.length_cons, List.length_append]
    omega

/-- What is split off through an angle bracket is split off in front of anything. -/
theorem splitAngles_eq_some (h : splitAngles depth ahead = some (inside, left)) :
    ahead = inside ++ left ∧ inside ≠ [] ∧
      ∀ other, splitAngles depth (inside ++ other) = some (inside, other) := by
  induction ahead generalizing depth inside with
  | nil => cases h
  | cons lexeme rest ih =>
    have keep : ∀ {depth : Nat} {inside : List Lexeme},
        ((splitAngles depth rest).map fun split => (lexeme :: split.1, split.2)) =
          some (inside, left) →
        ∃ more, inside = lexeme :: more ∧ rest = more ++ left ∧
          ∀ other, splitAngles depth (more ++ other) = some (more, other) := by
      intro depth inside h
      obtain ⟨⟨more, after⟩, found, same⟩ := Option.map_eq_some_iff.mp h
      cases same
      obtain ⟨rfl, -, again⟩ := ih found
      exact ⟨more, rfl, rfl, again⟩
    simp only [splitAngles] at h
    split_ifs at h with opens closes last
    · obtain ⟨more, rfl, rfl, again⟩ := keep h
      simp [splitAngles, opens, again]
    · cases h
      simp [splitAngles, opens, closes, last]
    · obtain ⟨more, rfl, rfl, again⟩ := keep h
      simp [splitAngles, opens, closes, last, again]
    · obtain ⟨more, rfl, rfl, again⟩ := keep h
      simp [splitAngles, opens, closes, again]

theorem angleGroup_eq_ok :
    angleGroup ahead = .ok (found, left) ↔
      ahead[0]?.any (·.is "<") ∧ splitAngles 0 ahead = some (found, left) := by
  rw [angleGroup, at?_bind]
  cases opens : ahead[0]?.any (·.is "<") with
  | false => simp only [Bool.false_eq_true, if_false, false_and, iff_false]; rintro ⟨⟩
  | true =>
    simp only [if_true, get_bind, true_and]
    cases splitAngles 0 ahead with
    | none => simp only [reduceCtorEq, iff_false]; rintro ⟨⟩
    | some split =>
      simp only [Option.some.injEq]
      constructor
      · rintro ⟨⟩
        rfl
      · rintro rfl
        rfl

instance : Shrinks angleGroup where
  suffix h := by
    obtain ⟨rfl, -⟩ := splitAngles_eq_some (angleGroup_eq_ok.mp h).2
    exact List.suffix_append _ _

end Groups

section Collecting

/-! ## What is collected is what is taken -/

/-- A step that collects gives what it takes, which is balanced, and it takes a lexeme if it is not
the last. -/
theorem collectStep_eq_ok {next : Option Nat}
    (h : collectStep stops angles depth ahead = .ok ((found, next), left)) :
    (ahead = found ++ left ∧ Balanced found) ∧ (next.isSome → found ≠ []) := by
  rw [collectStep, peek_bind] at h
  cases ahead with
  | nil => cases h; exact ⟨⟨rfl, rfl⟩, by simp⟩
  | cons lexeme rest =>
    have none : (lexeme :: rest = [] ++ lexeme :: rest ∧ Balanced []) ∧
        ((none : Option Nat).isSome → ([] : List Lexeme) ≠ []) := ⟨⟨rfl, rfl⟩, by simp⟩
    have single (opens : ¬lexeme.closer?.isSome) (closes : ¬lexeme.isCloser) {next : Option Nat} :
        (lexeme :: rest = [lexeme] ++ rest ∧ Balanced [lexeme]) ∧
          (next.isSome → [lexeme] ≠ []) := by
      simp only [Bool.not_eq_true, Option.isSome_eq_false_iff, Option.isNone_iff_eq_none] at opens
      exact ⟨⟨rfl, by simp [Balanced, owe_cons, Lexeme.owing, opens, closes]; rfl⟩, by simp⟩
    simp only [List.getElem?_cons_zero] at h
    split_ifs at h with _ opens closes
    · cases h; exact none
    · obtain ⟨found, middle, first, second⟩ := bind_eq_ok.mp h
      cases second
      obtain ⟨opener, inside, close, same, rfl, opens, closes, balanced⟩ := exists_of_group first
      exact ⟨⟨by simp [same], balanced.enclosed opens closes⟩, by simp⟩
    · cases h; exact none
    · cases h; exact single opens closes
    · cases h; exact none
    · cases h; exact single opens closes
    · cases h; exact single opens closes

/-- What is collected is what is taken, and is balanced. -/
theorem collectUntil_eq_ok (h : collectUntil stops angles ahead = .ok (found, left)) :
    ahead = found ++ left ∧ Balanced found := by
  have loops (fuel depth : Nat) {ahead found : List Lexeme}
      (h : loopUpTo (collectStep stops angles) fuel depth ahead = .ok (found, left)) :
      ahead = found ++ left ∧ Balanced found := by
    induction fuel generalizing depth ahead found with
    | zero => cases h
    | succ fuel ih =>
      rw [loopUpTo] at h
      obtain ⟨⟨items, next⟩, middle, first, second⟩ := bind_eq_ok.mp h
      obtain ⟨⟨same, balanced⟩, -⟩ := collectStep_eq_ok first
      cases next with
      | none => cases second; exact ⟨same, balanced⟩
      | some next =>
        obtain ⟨more, after, rest, last⟩ := bind_eq_ok.mp second
        cases last
        obtain ⟨again, balanced'⟩ := ih next rest
        exact ⟨by rw [same, again, List.append_assoc], balanced.append balanced'⟩
  exact loops _ _ h

instance :
    Shrinks (collectStep stops angles depth) where
  suffix {ahead left value} h := by
    obtain ⟨found, next⟩ := value
    rw [(collectStep_eq_ok h).1.1]
    exact List.suffix_append _ _

instance : Shrinks (collectUntil stops angles) := by
  unfold collectUntil; infer_instance

end Collecting

section Types

/-! ## Types -/

/-- The nested parsers of a grammar leave the last of the lexemes they are given. -/
class Grammar.Shrink (g : Grammar) : Prop where
  ty : ∀ sum, Shrinks (g.ty sum)
  path : Shrinks g.path
  bound : Shrinks g.bound

variable (g : Grammar) [shrink : g.Shrink] {sum : Bool}

instance : Shrinks (g.ty sum) := shrink.ty sum

instance : Shrinks g.path := shrink.path

instance : Shrinks g.bound := shrink.bound

instance : Shrinks atBound := by unfold atBound; infer_instance

instance [Shrinks bound] : Shrinks (boundStep bound sum) := by unfold boundStep; infer_instance

instance [Shrinks bound] : Shrinks (bounds bound sum) := by unfold bounds; infer_instance

set_option synthInstance.maxSize 2000 in
instance : Shrinks (angleArg g) := by unfold angleArg; infer_instance

instance : Shrinks (angleArgs g) := by unfold angleArgs; infer_instance

instance (ty : Parser (Ty Extent)) [Shrinks ty] : Shrinks (output? ty) := by
  unfold output?; infer_instance

instance : Shrinks (callArgs g) := by unfold callArgs; infer_instance

instance : Shrinks turbofish := by unfold turbofish; infer_instance

instance : Shrinks (segmentArgs g ident) := by unfold segmentArgs; infer_instance

instance : Shrinks (segment g) := by unfold segment; infer_instance

instance : Progresses (segment g) := by unfold segment; infer_instance

set_option synthInstance.maxSize 2000 in
instance : Shrinks (pathHead g) := by unfold pathHead; infer_instance

instance : Shrinks (segmentStep g) := by unfold segmentStep; infer_instance

instance : Progresses (segmentStep g) := by unfold segmentStep; infer_instance

instance : Shrinks (pathLayer g) := by unfold pathLayer; infer_instance

instance : Progresses (pathLayer g) := by unfold pathLayer; infer_instance

instance : Shrinks forLifetimes := by unfold forLifetimes; infer_instance

instance : Shrinks (boundRest g before) := by unfold boundRest; infer_instance

instance : Shrinks (boundLayer g) := by unfold boundLayer; infer_instance

instance : Shrinks (bareInput g) := by unfold bareInput; dsimp only; infer_instance

instance : Shrinks fnLifetimes := by unfold fnLifetimes; infer_instance

instance : Shrinks fnConvention := by unfold fnConvention; infer_instance

set_option synthInstance.maxSize 2000 in
instance : Shrinks (fnTail g start) := by
  unfold fnTail; infer_instance

instance : Shrinks (bareFn g) := by unfold bareFn; infer_instance

instance : Shrinks (tupleRest g) := by unfold tupleRest; infer_instance

set_option synthInstance.maxSize 2000 in
instance : Shrinks (parenTy g) := by unfold parenTy; infer_instance

set_option synthInstance.maxSize 2000 in
instance : Shrinks (bracketTy g) := by unfold bracketTy; dsimp only; infer_instance

instance : Shrinks lifetime? := by unfold lifetime?; infer_instance

instance : Shrinks (referenceTy g) := by unfold referenceTy; infer_instance

instance : Shrinks (pointerTy g) := by unfold pointerTy; dsimp only; infer_instance

instance : Shrinks (plusTail g) := by unfold plusTail; infer_instance

set_option synthInstance.maxSize 2000 in
instance : Shrinks (pathTy g sum) := by unfold pathTy; infer_instance

instance : Shrinks verbatimTy := by unfold verbatimTy; dsimp only; infer_instance

instance : Shrinks (tyLayer g sum) := by unfold tyLayer; infer_instance

instance : (grammar depth).Shrink := by
  induction depth with
  | zero => exact ⟨fun _ => shrinks_throw, shrinks_throw, shrinks_throw⟩
  | succ depth ih => exact ⟨fun sum => inferInstanceAs (Shrinks (tyLayer _ sum)),
      inferInstanceAs (Shrinks (pathLayer _)), inferInstanceAs (Shrinks (boundLayer _))⟩

instance : Shrinks (ty sum) := by unfold ty; infer_instance

end Types

section Items

/-! ## Items -/

variable {marks : List (Attribute Extent)} {visible : Visibility Extent} {first : Ty Extent}
  {negative markedUnsafe : Bool} {kind : String} {bound : Generics Extent}

instance : Shrinks pathWords := by unfold pathWords; infer_instance

instance : Shrinks wordPath := by unfold wordPath; infer_instance

instance : Shrinks attributeInput := by unfold attributeInput; infer_instance

instance : Shrinks attributeFront := by unfold attributeFront; infer_instance

instance : Shrinks (attributeRest before) := by unfold attributeRest; infer_instance

instance : Shrinks oneAttribute := by unfold oneAttribute; infer_instance

instance (innerOnly : Bool) : Shrinks (attributeStep innerOnly) := by
  unfold attributeStep; infer_instance

instance (innerOnly : Bool) : Shrinks (attributes innerOnly) := by
  unfold attributes; infer_instance

instance : Shrinks visibility := by unfold visibility; infer_instance

set_option synthInstance.maxSize 2000 in
instance : Shrinks paramRest := by unfold paramRest; infer_instance

instance : Shrinks genericParam := by unfold genericParam; infer_instance

instance : Shrinks generics := by unfold generics; infer_instance

instance (found : Generics Extent) : Shrinks (whereClause found) := by
  unfold whereClause; infer_instance

instance : Shrinks (fieldName named) := by unfold fieldName; infer_instance

instance : Shrinks (field named) := by unfold field; infer_instance

instance : Shrinks (structBody bound) := by unfold structBody; infer_instance

instance : Shrinks structFront := by unfold structFront; infer_instance

instance : Shrinks (structItem before marks visible) := by
  unfold structItem; infer_instance

instance : Shrinks (otherPattern before) := by unfold otherPattern; dsimp only; infer_instance

instance (name : String) (mutable byRef : Bool) :
    Shrinks (namedPattern before name mutable byRef) := by unfold namedPattern; infer_instance

instance : Shrinks pattern := by unfold pattern; infer_instance

instance : Shrinks (atSelf distance) := by unfold atSelf; infer_instance

set_option synthInstance.maxSize 2000 in
instance {start : Nat} : Shrinks (plainInput start before marks lexeme) := by
  unfold plainInput; dsimp only; infer_instance

instance {start : Nat} : Shrinks (inputRest start marks) := by unfold inputRest; infer_instance

instance : Shrinks methodInput := by unfold methodInput; infer_instance

instance : Shrinks methodBody := by unfold methodBody; infer_instance

set_option synthInstance.maxSize 2000 in
instance (qualifiers : List String) : Shrinks (method before marks visible qualifiers) := by
  unfold method; infer_instance

instance : Shrinks memberBraces := by unfold memberBraces; infer_instance

instance : Shrinks otherMember := by unfold otherMember; infer_instance

instance : Shrinks (memberRest before marks visible) := by unfold memberRest; infer_instance

instance : Shrinks member := by unfold member; infer_instance

instance : Shrinks memberStep := by unfold memberStep; infer_instance

instance : Shrinks members := by unfold members; infer_instance

instance : Shrinks implGenerics := by unfold implGenerics; infer_instance

instance : Shrinks (traitAndType first) := by
  cases first <;> unfold traitAndType <;> infer_instance

instance : Shrinks (implTarget negative first) := by
  unfold implTarget; infer_instance

instance : Shrinks implBody := by unfold implBody; infer_instance

instance : Shrinks (implTypes negative) := by unfold implTypes; infer_instance

set_option synthInstance.maxSize 2000 in
instance : Shrinks implFront := by unfold implFront; infer_instance

instance : Shrinks (implItem before marks) := by unfold implItem; infer_instance

theorem bodyStep_cons (kind : String) (lexeme : Lexeme) (rest : List Lexeme) :
    bodyStep kind (lexeme :: rest) = bodyStepAt kind lexeme (lexeme :: rest) :=
  rfl

instance : Shrinks (bodyBraces kind) := by
  unfold bodyBraces; dsimp only; infer_instance

instance (lexeme : Lexeme) : Shrinks (bodyStepAt kind lexeme) := by
  unfold bodyStepAt; infer_instance

instance : Shrinks (bodyStep kind) := by unfold bodyStep; infer_instance

instance : Shrinks (itemBody kind) := by unfold itemBody; infer_instance

theorem otherItem_eq_ok {attributes : List (Attribute Extent)} {visibility : Visibility Extent}
    {value : OtherItem Extent} :
    otherItem before attributes visibility ahead = .ok (value, left) ↔
      ∃ passed keyword rest, splitQualifiers [] ahead = (passed, keyword :: rest) ∧
        otherRest before attributes visibility passed keyword rest ahead = .ok (value, left) := by
  rw [otherItem, get_bind]
  rcases splitQualifiers [] ahead with ⟨passed, _ | ⟨keyword, rest⟩⟩
  · simp only [Prod.mk.injEq, reduceCtorEq, and_false, false_and, exists_false, iff_false]
    rintro ⟨⟩
  · simp only [Prod.mk.injEq, List.cons.injEq]
    constructor
    · intro h
      exact ⟨passed, keyword, rest, ⟨rfl, rfl, rfl⟩, h⟩
    · rintro ⟨_, _, _, ⟨rfl, rfl, rfl⟩, h⟩
      exact h

instance (passed : List Lexeme) (keyword : Lexeme) :
    Shrinks (otherRest before marks visible passed keyword rest) := by
  unfold otherRest; dsimp only; infer_instance

instance : Shrinks (otherItem before marks visible) where
  suffix h := by
    obtain ⟨passed, keyword, rest, -, h⟩ := otherItem_eq_ok.mp h
    exact Shrinks.suffix h

theorem item_apply (some : ahead ≠ []) :
    item ahead = (do
      let attributes ← attributes
      let visibility ← visibility
      itemRest ahead.length attributes visibility : Parser (Item Extent)) ahead := by
  have nonempty : ¬ ahead.length = 0 := by simpa using some
  rw [item, mark_bind, if_neg nonempty]

instance : Shrinks (itemRest before marks visible) := by unfold itemRest; infer_instance

end Items

end ActorGlue.Parse
