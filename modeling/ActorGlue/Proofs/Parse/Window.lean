import ActorGlue.Proofs.Parse.Progress
import ActorGlue.Proofs.Token.Slices

/-!
# Parsing through a window

A window is a stretch of lexemes with a barrier behind it, in front of two different
continuations. A parser that does not take the barrier gives the same result in front of both: it
never looks beyond the barrier. Extents count the lexemes ahead, so they differ by what stands
behind the barrier, and by nothing else.
-/

namespace ActorGlue

open Parse

/-- A nonempty stretch of a number of lexemes: how many of them are ahead before it and after
it. -/
structure Stretch (size : Nat) where
  before : Nat
  after : Nat
  within : before ≤ size
  shorter : after < before

/-- The extent of a stretch with a number of lexemes behind it. -/
def Stretch.extent {size : Nat} (behind : Nat) (stretch : Stretch size) : Extent :=
  ⟨stretch.before + behind, stretch.after + behind⟩

/-- A number of lexemes and a barrier, in front of two continuations. -/
structure Window where
  size : Nat
  stop : Lexeme
  barrier : stop.isBarrier
  tail : List Lexeme
  other : List Lexeme

variable {last after : List Lexeme}

namespace Window

variable (w : Window)
variable (ahead : List Lexeme) {text : String}

/-- The lexemes with the barrier and the first continuation. -/
def left (ahead : List Lexeme) : List Lexeme :=
  ahead ++ w.stop :: w.tail

/-- The lexemes with the barrier and the second continuation. -/
def right (ahead : List Lexeme) : List Lexeme :=
  ahead ++ w.stop :: w.other

/-- The places in the window. -/
abbrev Place : Type :=
  Stretch w.size

/-- The extent of a stretch in front of the first continuation. -/
def leftExtent (place : w.Place) : Extent :=
  place.extent (w.tail.length + 1)

/-- The extent of a stretch in front of the second continuation. -/
def rightExtent (place : w.Place) : Extent :=
  place.extent (w.other.length + 1)

/-- How a value with places in the window is read in front of each continuation. -/
class Reading (w : Window) (α : Type) (X : outParam Type) where
  here : X → α
  there : X → α

section Readings

variable {α β X Y : Type}

/-- The value in front of the first continuation. -/
abbrev here [Reading w α X] (x : X) : α :=
  Reading.here w x

/-- The value in front of the second continuation. -/
abbrev there [Reading w α X] (x : X) : α :=
  Reading.there w x

instance : Reading w Unit Unit := ⟨fun x => x, fun x => x⟩

instance : Reading w Bool Bool := ⟨fun x => x, fun x => x⟩

instance : Reading w Nat Nat := ⟨fun x => x, fun x => x⟩

instance : Reading w String String := ⟨fun x => x, fun x => x⟩

instance : Reading w Lexeme Lexeme := ⟨fun x => x, fun x => x⟩

instance : Reading w Extent w.Place := ⟨w.leftExtent, w.rightExtent⟩

instance readingList [Reading w α X] : Reading w (List α) (List X) :=
  ⟨List.map w.here, List.map w.there⟩

instance [Reading w α X] : Reading w (Option α) (Option X) :=
  ⟨Option.map w.here, Option.map w.there⟩

instance [Reading w α X] [Reading w β Y] : Reading w (α × β) (X × Y) :=
  ⟨Prod.map w.here w.here, Prod.map w.there w.there⟩

/-- Lexemes have no places. -/
instance (priority := high) : Reading w (List Lexeme) (List Lexeme) := ⟨fun x => x, fun x => x⟩

instance (priority := high) : Reading w (List String) (List String) := ⟨fun x => x, fun x => x⟩

instance (priority := high) : Reading w (Option String) (Option String) :=
  ⟨fun x => x, fun x => x⟩

end Readings

/-- If the first run stops inside of the window, then the second one stops at the same place, and
both read one value. -/
def Sim {X α : Type} [Reading w α X] (first second : Except Complaint (α × List Lexeme)) : Prop :=
  ∀ value ahead, first = .ok (value, w.left ahead) →
    ∃ x : X, value = w.here x ∧ second = .ok (w.there x, w.right ahead)

/-- Two parsers agree on lexemes that stand in the window. -/
abbrev Agree {X α : Type} [Reading w α X] (parser other : Parser α) (ahead : List Lexeme) : Prop :=
  w.Sim (parser (w.left ahead)) (other (w.right ahead))

variable {w}

@[simp]
theorem left_nil : w.left [] = w.stop :: w.tail :=
  rfl

@[simp]
theorem right_nil : w.right [] = w.stop :: w.other :=
  rfl

@[simp]
theorem left_cons (lexeme : Lexeme) (ahead : List Lexeme) :
    w.left (lexeme :: ahead) = lexeme :: w.left ahead :=
  rfl

@[simp]
theorem right_cons (lexeme : Lexeme) (ahead : List Lexeme) :
    w.right (lexeme :: ahead) = lexeme :: w.right ahead :=
  rfl

theorem left_append (first second : List Lexeme) :
    w.left (first ++ second) = first ++ w.left second := by
  simp [left]

theorem right_append (first second : List Lexeme) :
    w.right (first ++ second) = first ++ w.right second := by
  simp [right]

theorem left_inj {first second : List Lexeme} : w.left first = w.left second ↔ first = second := by
  simp [left]

theorem length_left : (w.left ahead).length = ahead.length + (w.tail.length + 1) := by
  simp [left]

theorem length_right : (w.right ahead).length = ahead.length + (w.other.length + 1) := by
  simp [right]

/-- What lies between two states inside of the window lies inside of it. -/
theorem exists_left {ahead : List Lexeme} {middle : List Lexeme} (above : w.left last <:+ middle)
    (below : middle <:+ w.left ahead) : ∃ between, middle = w.left between ∧ between <:+ ahead := by
  obtain ⟨taken, same⟩ := below
  have long := above.length_le
  rw [length_left] at long
  have length := congrArg List.length same
  simp only [List.length_append, length_left] at length
  have fits : taken.length ≤ ahead.length := by omega
  have split := congrArg (List.drop taken.length) same
  rw [List.drop_left, left, List.drop_append_of_le_length fits] at split
  exact ⟨ahead.drop taken.length, split, List.drop_suffix _ _⟩

section Stop

/-- The texts of barriers. -/
def barriers : List String := [")", "]", "\x7d", ";"]

theorem stop_kind : w.stop.kind = .punct := by
  have barrier := w.barrier
  simp only [Lexeme.isBarrier, Lexeme.isPunctOf, Bool.and_eq_true, decide_eq_true_eq] at barrier
  exact barrier.1

theorem stop_text : barriers.contains w.stop.text := by
  have barrier := w.barrier
  simp only [Lexeme.isBarrier, Lexeme.isPunctOf, Bool.and_eq_true] at barrier
  exact barrier.2

/-- The barrier is no other mark. -/
theorem stop_ne (apart : barriers.contains text = false) : w.stop.text ≠ text := by
  rintro rfl
  rw [stop_text] at apart
  cases apart

theorem stop_is (apart : barriers.contains text = false) : w.stop.is text = false := by
  simp [Lexeme.is, stop_ne apart]

theorem stop_isPunct (apart : barriers.contains text = false) : w.stop.isPunct text = false := by
  simp [Lexeme.isPunct, stop_ne apart]

theorem stop_isPunctOf {texts : List String}
    (apart : ∀ text ∈ texts, barriers.contains text = false) : w.stop.isPunctOf texts = false := by
  have other : w.stop.text ∉ texts := fun found => stop_ne (apart _ found) rfl
  simp [Lexeme.isPunctOf, other]

@[simp]
theorem stop_isIdent (text : String) : w.stop.isIdent text = false := by
  simp [Lexeme.isIdent, stop_kind]

end Stop

section Combinators

variable {X Y α β : Type} [Reading w α X] [Reading w β Y] {ahead : List Lexeme}
  {second : Except Complaint (α × List Lexeme)} {parser other : Parser α}
  {next next' : Bool → Parser α} {wanted wanted' : String} {distance : Nat} {before : List Lexeme}

/-- A run that leaves less than the first continuation does not stop inside of the window. -/
theorem Sim.of_short {first : Except Complaint (α × List Lexeme)}
    (short : ∀ value left, first = .ok (value, left) → left.length ≤ w.tail.length) :
    w.Sim first second := by
  intro value ahead ran
  have long := short value _ ran
  rw [length_left] at long
  omega

theorem Sim.of_tail [Shrinks parser] {left : List Lexeme} (short : left.length ≤ w.tail.length) :
    w.Sim (parser left) second :=
  .of_short fun _ _ ran => (Shrinks.suffix ran).length_le.trans short

theorem Sim.of_error {complaint : Complaint} : w.Sim (.error complaint) second := by
  rintro value ahead ⟨⟩

theorem Sim.pure (x : X) {value other : α} (same : value = w.here x) (same' : other = w.there x) :
    w.Agree (Pure.pure value : Parser α) (Pure.pure other : Parser α) ahead := by
  subst same same'
  rintro value ahead ran
  obtain ⟨rfl, same⟩ := Prod.mk.inj (Except.ok.inj ran)
  obtain rfl := left_inj.mp same
  exact ⟨x, rfl, rfl⟩

/-- Two parsers one after the other: the first ones agree, and the second ones go on from there. -/
theorem Sim.split_bind {next : α → Parser β} [Shrinks parser] [∀ value, Shrinks (next value)]
    {value : β} (first : w.Agree parser other ahead)
    (ran : (parser >>= next) (w.left ahead) = .ok (value, w.left last)) :
    ∃ x after, after.length ≤ ahead.length ∧
      parser (w.left ahead) = .ok (w.here x, w.left after) ∧
      next (w.here x) (w.left after) = .ok (value, w.left last) ∧
      other (w.right ahead) = .ok (w.there x, w.right after) := by
  obtain ⟨found, middle, taken, ran⟩ := bind_eq_ok.mp ran
  obtain ⟨after, rfl, behind⟩ := exists_left (Shrinks.suffix ran) (Shrinks.suffix taken)
  obtain ⟨x, rfl, taken'⟩ := first found after taken
  exact ⟨x, after, behind.length_le, taken, ran, taken'⟩

theorem Sim.bind {next next' : α → Parser β} [Shrinks parser] [∀ value, Shrinks (next value)]
    (first : w.Agree parser other ahead) (rest : ∀ x after, after.length ≤ ahead.length →
      parser (w.left ahead) = .ok (w.here x, w.left after) →
      w.Agree (next (w.here x)) (next' (w.there x)) after) :
    w.Agree (parser >>= next) (other >>= next') ahead := by
  intro value last ran
  obtain ⟨x, after, le, taken, ran, again⟩ := first.split_bind ran
  rw [bind_of_ok again]
  exact rest x after le taken value last ran

/-- A parser that takes a lexeme leaves less of the window. -/
theorem shorter_of_ok [Progresses parser] {value : α}
    (taken : parser (w.left ahead) = .ok (value, w.left after)) : after.length < ahead.length := by
  have shorter := Progresses.shorter taken
  simp only [length_left] at shorter
  omega

theorem Sim.ite {condition : Prop} [Decidable condition] {yes no yes' no' : Parser α}
    {state state' : List Lexeme}
    (pos : condition → w.Sim (yes state) (yes' state'))
    (neg : ¬ condition → w.Sim (no state) (no' state')) :
    w.Sim ((if condition then yes else no) state)
      ((if condition then yes' else no') state') := by
  by_cases holds : condition
  · simpa only [if_pos holds] using pos holds
  · simpa only [if_neg holds] using neg holds

theorem Sim.eat [Shrinks (next true)]
    (taken : ∀ after, after.length < ahead.length → w.Agree (next true) (next' true) after)
    (missing : w.Agree (next false) (next' false) ahead) :
    w.Agree (Parse.eat text >>= next) (Parse.eat text >>= next') ahead := by
  rw [Agree, eat_bind, eat_bind]
  cases ahead with
  | nil =>
    simp only [left_nil, right_nil, List.getElem?_cons_zero, Option.any_some, List.drop_succ_cons,
      List.drop_zero]
    cases found : w.stop.is text with
    | true => simpa using Sim.of_tail (le_refl _)
    | false => simpa [Agree] using missing
  | cons lexeme after =>
    simp only [left_cons, right_cons, List.getElem?_cons_zero, Option.any_some,
      List.drop_succ_cons, List.drop_zero]
    cases found : lexeme.is text with
    | true => simpa using taken after (Nat.lt_succ_self _)
    | false => simpa [Agree] using missing

theorem Sim.ate : w.Agree (Parse.eat text) (Parse.eat text) ahead := by
  rw [← bind_pure (Parse.eat text)]
  exact .eat (fun _ _ => .pure true rfl rfl) (.pure false rfl rfl)

theorem Sim.expect {next next' : Unit → Parser α} [Shrinks (next ())]
    (taken : ∀ after, after.length < ahead.length → w.Agree (next ()) (next' ()) after) :
    w.Agree (Parse.expect text wanted >>= next) (Parse.expect text wanted' >>= next') ahead := by
  rw [Agree, expect_bind, expect_bind]
  cases ahead with
  | nil =>
    simp only [left_nil, List.getElem?_cons_zero, Option.any_some, List.drop_succ_cons,
      List.drop_zero]
    split
    · exact Sim.of_tail (le_refl _)
    · exact Sim.of_error
  | cons lexeme after =>
    simp only [left_cons, right_cons, List.getElem?_cons_zero, Option.any_some,
      List.drop_succ_cons, List.drop_zero]
    cases found : lexeme.is text with
    | true => simpa using taken after (Nat.lt_succ_self _)
    | false => exact Sim.of_error

theorem Sim.expectIdent {next next' : String → Parser α}
    (taken : ∀ word after, after.length < ahead.length → w.Agree (next word) (next' word) after) :
    w.Agree (Parse.expectIdent wanted >>= next) (Parse.expectIdent wanted' >>= next') ahead := by
  intro value last ran
  obtain ⟨found, middle, word, ran⟩ := bind_eq_ok.mp ran
  obtain ⟨lexeme, isWord, rfl, same⟩ := expectIdent_eq_ok word
  cases ahead with
  | nil =>
    obtain ⟨rfl, rfl⟩ := List.cons.inj same
    rw [stop_kind] at isWord
    cases isWord
  | cons first after =>
    obtain ⟨rfl, rfl⟩ := List.cons.inj same
    have word' : Parse.expectIdent wanted' (w.right (first :: after)) =
        .ok (first.text, w.right after) := by
      rw [right_cons, Parse.expectIdent, get_bind]
      simp only [isWord, if_true]
      rfl
    rw [bind_of_ok word']
    exact taken first.text after (Nat.lt_succ_self _) value last ran

theorem Sim.advance {next next' : Lexeme → Parser α} [Shrinks (next w.stop)]
    (taken : ∀ lexeme after, after.length < ahead.length →
      w.Agree (next lexeme) (next' lexeme) after) :
    w.Agree (Parse.advance wanted >>= next) (Parse.advance wanted' >>= next') ahead := by
  cases ahead with
  | nil =>
    change w.Sim (next w.stop w.tail) _
    exact Sim.of_tail le_rfl
  | cons lexeme after => exact taken lexeme after (Nat.lt_succ_self _)

theorem left_peek (fits : distance ≤ ahead.length) :
    (w.left ahead)[distance]? = (ahead ++ [w.stop])[distance]? := by
  rw [left, List.append_cons, List.getElem?_append_left]
  simp
  omega

theorem right_peek (fits : distance ≤ ahead.length) :
    (w.right ahead)[distance]? = (ahead ++ [w.stop])[distance]? := by
  rw [right, List.append_cons, List.getElem?_append_left]
  simp
  omega

/-- The next lexeme is the same for both. -/
theorem left_head : (w.left ahead)[0]? = (ahead ++ [w.stop])[0]? :=
  left_peek (Nat.zero_le _)

theorem right_head : (w.right ahead)[0]? = (ahead ++ [w.stop])[0]? :=
  right_peek (Nat.zero_le _)

/-- A second lexeme is the same for both if it is asked for behind one that is no barrier. -/
theorem left_both {first : Lexeme → Bool} (apart : first w.stop = false)
    (second : Option Lexeme → Bool) :
    ((w.left ahead)[0]?.any first && second (w.left ahead)[1]?) =
      ((w.right ahead)[0]?.any first && second (w.right ahead)[1]?) := by
  cases ahead with
  | nil => simp [apart]
  | cons lexeme rest => rw [left_head, right_head, left_peek (by simp), right_peek (by simp)]

theorem Sim.at? (fits : distance ≤ ahead.length)
    (rest : ∀ found, w.Agree (next found) (next' found) ahead) :
    w.Agree (Parse.at? text distance >>= next) (Parse.at? text distance >>= next') ahead := by
  rw [Agree, at?_bind, at?_bind, left_peek fits, right_peek fits]
  exact rest _

theorem Sim.kindAt? {kind : Token.Kind} (fits : distance ≤ ahead.length)
    (rest : ∀ found, w.Agree (next found) (next' found) ahead) :
    w.Agree (Parse.kindAt? kind distance >>= next)
      (Parse.kindAt? kind distance >>= next') ahead := by
  rw [Agree, kindAt?_bind, kindAt?_bind, left_peek fits, right_peek fits]
  exact rest _

theorem Sim.readSince {next next' : List Lexeme → Parser α}
    (rest : w.Agree (next (before.take (before.length - ahead.length)))
      (next' (before.take (before.length - ahead.length))) ahead) :
    w.Agree (Parse.readSince (w.left before) >>= next)
      (Parse.readSince (w.right before) >>= next') ahead := by
  have take : ∀ behind : List Lexeme,
      (before ++ behind).take ((before ++ behind).length - (ahead ++ behind).length) =
        before.take (before.length - ahead.length) := by
    intro behind
    rw [List.length_append, List.length_append, Nat.add_sub_add_right,
      List.take_append_of_le_length (Nat.sub_le _ _)]
  change w.Sim (next ((w.left before).take _) _) (next' ((w.right before).take _) _)
  rw [left, left, right, right, take, take]
  exact rest

theorem Sim.extentFrom {next next' : Extent → Parser α} (within : before.length ≤ w.size)
    (shorter : ahead.length < before.length)
    (rest : ∀ place : w.Place, w.Agree (next (w.leftExtent place))
      (next' (w.rightExtent place)) ahead) :
    w.Agree (Parse.extentFrom (w.left before).length >>= next)
      (Parse.extentFrom (w.right before).length >>= next') ahead := by
  rw [Agree, extentFrom_bind, extentFrom_bind]
  simp only [length_left, length_right]
  exact rest ⟨before.length, ahead.length, within, shorter⟩

theorem Sim.skip {count : Nat} {next next' : Unit → Parser α} [Shrinks (next ())]
    (rest : ∀ after, after.length + count = ahead.length → w.Agree (next ()) (next' ()) after) :
    w.Agree (Parse.skip count >>= next) (Parse.skip count >>= next') ahead := by
  rw [Agree, skip_bind, skip_bind]
  by_cases fits : count ≤ ahead.length
  · rw [left, right, List.drop_append_of_le_length fits, List.drop_append_of_le_length fits]
    exact rest _ (by rw [List.length_drop]; omega)
  · refine Sim.of_tail ?_
    rw [List.length_drop, length_left]
    omega

end Combinators

section Takers

/-! ## Parsers that give what they take -/

variable {ahead : List Lexeme}

/-- A parser that splits off what it gives, whatever follows, is the same in both runs. -/
theorem Sim.of_split {parser : Parser (List Lexeme)}
    (split : ∀ {ahead found left : List Lexeme}, parser ahead = .ok (found, left) →
      ahead = found ++ left ∧ ∀ other, parser (found ++ other) = .ok (found, other)) :
    w.Agree parser parser ahead := by
  intro found last ran
  obtain ⟨same, again⟩ := split ran
  rw [← left_append, left_inj] at same
  refine ⟨found, rfl, ?_⟩
  rw [same, right_append]
  exact again _

theorem Sim.group : w.Agree Parse.group Parse.group ahead :=
  .of_split fun ran => ⟨(group_eq_ok ran).1, (group_eq_ok ran).2.1⟩

theorem Sim.angleGroup : w.Agree Parse.angleGroup Parse.angleGroup ahead := by
  refine .of_split fun {ahead found left} ran => ?_
  obtain ⟨opens, split⟩ := angleGroup_eq_ok.mp ran
  obtain ⟨rfl, some, again⟩ := splitAngles_eq_some split
  refine ⟨rfl, fun other => angleGroup_eq_ok.mpr ⟨?_, again other⟩⟩
  cases found with
  | nil => exact absurd rfl some
  | cons first rest => exact opens

end Takers

section Loops

/-! ## Repetitions

A step that goes on without taking a lexeme goes on for ever, so in a run that ends every step but
the last takes one. That is why more steps than there are lexemes are enough for both runs. -/

variable {X α σ : Type} [Reading w α X] {ahead : List Lexeme} {step step' : Parser (List α × Bool)}
  {stops : List String} {angles : Bool}

theorem Sim.loopUpTo {step step' : σ → Parser (List α × Option σ)} [∀ state, Shrinks (step state)]
    (stuck : ∀ {state next items ahead}, step state ahead = .ok ((items, some next), ahead) →
      ∀ fuel, Parse.loopUpTo step fuel next ahead = .error .endless)
    (sim : ∀ state before after items next, before.length ≤ ahead.length →
      step state (w.left before) = .ok ((items, next), w.left after) →
      (next.isSome → after.length < before.length) →
      ∃ xs : List X, items = w.here xs ∧
        step' state (w.right before) = .ok ((w.there xs, next), w.right after))
    {fuel fuel' : Nat} {state : σ} (enough : ahead.length < fuel') :
    w.Agree (Parse.loopUpTo step fuel state) (Parse.loopUpTo step' fuel' state) ahead := by
  -- The induction is on the steps of the second run, which has more of them than lexemes.
  induction fuel' generalizing fuel state ahead with
  | zero => omega
  | succ fuel' ih =>
    intro value last ran
    cases fuel with
    | zero => cases ran
    | succ fuel =>
      rw [Parse.loopUpTo] at ran
      obtain ⟨⟨items, next⟩, middle, taken, ran⟩ := bind_eq_ok.mp ran
      cases next with
      | none =>
        obtain ⟨rfl, rfl⟩ := Prod.mk.inj (Except.ok.inj ran)
        obtain ⟨xs, rfl, taken'⟩ := sim state ahead last items none le_rfl taken (by simp)
        exact ⟨xs, rfl, by rw [Parse.loopUpTo, bind_of_ok taken']; rfl⟩
      | some next =>
        obtain ⟨others, left, again, same⟩ := bind_eq_ok.mp ran
        obtain ⟨rfl, rfl⟩ := Prod.mk.inj (Except.ok.inj same)
        obtain ⟨after, rfl, behind⟩ :=
          exists_left (Shrinks.suffix again) (Shrinks.suffix taken)
        have shorter : after.length < ahead.length := by
          refine lt_of_le_of_ne behind.length_le fun same => ?_
          obtain rfl := behind.eq_of_length same
          rw [stuck taken fuel] at again
          cases again
        obtain ⟨xs, rfl, taken'⟩ :=
          sim state ahead after items (some next) le_rfl taken fun _ => shorter
        have sims : w.Agree (Parse.loopUpTo step fuel next)
          (Parse.loopUpTo step' fuel' next) after :=
          ih (fun state before _ items next fits => sim state before _ items next
            (fits.trans shorter.le)) (by omega)
        obtain ⟨ys, rfl, again'⟩ := sims others last again
        refine ⟨xs ++ ys, (List.map_append ..).symm, ?_⟩
        rw [Parse.loopUpTo, bind_of_ok taken']
        refine (bind_of_ok again').trans ?_
        rw [pure_apply]
        exact congrArg (fun found => Except.ok (found, w.right last))
          (List.map_append ..).symm

theorem Sim.many [Shrinks step] (sim : ∀ before after items more, before.length ≤ ahead.length →
      step (w.left before) = .ok ((items, more), w.left after) →
      (more → after.length < before.length) →
      ∃ xs : List X, items = w.here xs ∧
        step' (w.right before) = .ok ((w.there xs, more), w.right after)) :
    w.Agree (Parse.many step) (Parse.many step') ahead := by
  rw [Agree, many_apply, many_apply]
  have enough : ahead.length < (w.right ahead).length + 1 := by rw [length_right]; omega
  refine Sim.loopUpTo (fun taken => endless_of_stuck (manyStep_eq_ok taken)) ?_ enough
  intro state before after items next fits taken shorter
  obtain ⟨xs, rfl, taken'⟩ := sim before after items _ fits (manyStep_eq_ok taken) shorter
  refine ⟨xs, rfl, (manyStep_of_ok taken').trans ?_⟩
  cases next <;> rfl

theorem Sim.repeated [Shrinks step]
    (sim : ∀ before, before.length ≤ ahead.length → w.Agree step step' before) :
    w.Agree (Parse.many step) (Parse.many step') ahead := by
  refine Sim.many fun before after items more fits taken _ => ?_
  obtain ⟨⟨xs, more⟩, same, taken'⟩ := sim before fits _ _ taken
  cases same
  exact ⟨xs, rfl, taken'⟩

theorem Sim.separated {separator : String} {done done' : Parser Bool} {item item' : Parser α}
    [Shrinks done] [Shrinks item]
    (ends : ∀ before, w.Agree done done' before)
    (sim : ∀ before, before.length ≤ ahead.length →
      w.Agree item item' before) :
    w.Agree (Parse.separated separator done item)
      (Parse.separated separator done' item') ahead := by
  refine .repeated fun before fits => ?_
  refine .bind (ends before) fun ended after shorter _ => ?_
  refine .ite (fun _ => .pure ([], false) rfl rfl) fun _ => ?_
  refine .bind (sim after (shorter.trans fits)) fun x after _ _ => ?_
  exact .eat (fun _ _ => .pure ([x], true) rfl rfl) (.pure ([x], false) rfl rfl)

theorem Sim.collectStep {depth : Nat} :
    w.Agree (Parse.collectStep stops angles depth)
      (Parse.collectStep stops angles depth) ahead := by
  rw [Agree, Parse.collectStep, peek_bind, peek_bind, left_head, right_head]
  cases (ahead ++ [w.stop])[0]? with
  | none => exact .pure ([], none) rfl rfl
  | some lexeme =>
    refine .ite (fun _ => .pure ([], none) rfl rfl) fun _ => ?_
    refine .ite (fun _ => .bind .group fun found _ _ _ => .pure (found, some depth) rfl rfl)
      fun _ => ?_
    refine .ite (fun _ => .pure ([], none) rfl rfl) fun _ => ?_
    refine .ite (fun _ => .advance fun _ _ _ => .pure ([_], some (depth + 1)) rfl rfl) fun _ => ?_
    refine .ite (fun _ => ?_) fun _ => .advance fun _ _ _ => .pure ([_], some depth) rfl rfl
    exact .ite (fun _ => .pure ([], none) rfl rfl)
      fun _ => .advance fun _ _ _ => .pure ([_], some (depth - 1)) rfl rfl

theorem Sim.collectUntil :
    w.Agree (Parse.collectUntil stops angles) (Parse.collectUntil stops angles) ahead := by
  intro found last ran
  rw [Parse.collectUntil, Parse.loop, mark_bind] at ran ⊢
  have enough : ahead.length < (w.right ahead).length + 1 := by rw [length_right]; omega
  suffices sim : ∃ xs, found = List.map (fun lexeme => lexeme) xs ∧
      Parse.loopUpTo (Parse.collectStep stops angles) ((w.right ahead).length + 1) 0
        (w.right ahead) = .ok (List.map (fun lexeme => lexeme) xs, w.right last) by
    obtain ⟨xs, rfl, ran'⟩ := sim
    exact ⟨_, rfl, ran'⟩
  refine Sim.loopUpTo ?_ ?_ enough found last ran
  · intro state next items ahead taken
    obtain ⟨⟨same, -⟩, some⟩ := collectStep_eq_ok taken
    exact absurd (List.self_eq_append_left.mp same) (some rfl)
  · intro state before after items next _ taken _
    obtain ⟨⟨xs, more⟩, same, taken'⟩ := Sim.collectStep _ _ taken
    obtain ⟨rfl, rfl⟩ := Prod.mk.inj same
    have whole : items = List.map (fun lexeme => lexeme) items := (List.map_id _).symm
    exact ⟨items, whole, taken'.trans
      (congrArg (fun found => Except.ok ((found, w.here more), w.right after)) whole)⟩

/-- Collecting something leaves less of the window. -/
theorem shorter_of_collected {found : List Lexeme}
    (taken : Parse.collectUntil stops angles (w.left ahead) = .ok (found, w.left after))
    (some : ¬ found.isEmpty) : after.length < ahead.length := by
  have same := congrArg List.length (collectUntil_eq_ok taken).1
  simp only [List.length_append, length_left] at same
  have pos : 0 < found.length := List.length_pos_of_ne_nil (by simpa using some)
  omega

end Loops

end Window

end ActorGlue
