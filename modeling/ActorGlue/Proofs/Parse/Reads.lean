import ActorGlue.Proofs.Parse.Progress

/-!
# What parsers read

What a parser reads is judged step by step, as the parser takes the lexemes. Where the parser
stands is known by the number of lexemes ahead of it, or by all the lexemes that they end.
-/

namespace ActorGlue.Parse

/-- From the lexemes ahead the parser reads nothing but values with the property. -/
structure Reads {α : Type} (ahead : List Lexeme) (parser : Parser α)
    (Gives : List Lexeme → α → Prop) : Prop where
  gives : ∀ {left : List Lexeme} {value : α}, parser ahead = .ok (value, left) → Gives left value

variable {complaint : Complaint} {wanted text separator : String} {condition : Prop}
  {distance : Nat} {done : Parser Bool}

namespace Reads

variable {α β : Type} {ahead : List Lexeme} {parser : Parser α} {next : α → Parser β}
  {First : List Lexeme → α → Prop} {Gives : List Lexeme → β → Prop} {yes no : Parser β}

theorem mono {Second : List Lexeme → α → Prop} (reads : Reads ahead parser First)
    (imp : ∀ {left value}, First left value → Second left value) : Reads ahead parser Second :=
  ⟨fun h => imp (reads.gives h)⟩

theorem of_eq {other : Parser α} {behind : List Lexeme} (same : parser ahead = other behind)
    (reads : Reads behind other First) : Reads ahead parser First :=
  ⟨fun h => reads.gives (same.symm.trans h)⟩

theorem pure {value : β} (gives : Gives ahead value) : Reads ahead (Pure.pure value) Gives := by
  constructor
  intro left found h
  cases h
  exact gives

theorem throw : Reads ahead (MonadExcept.throw complaint) Gives := by
  constructor
  intro left value h
  cases h

theorem refuse : Reads ahead (Parse.refuse wanted) Gives := by
  constructor
  intro left value h
  cases h

theorem ite [Decidable condition] (first : condition → Reads ahead yes Gives)
    (second : ¬condition → Reads ahead no Gives) :
    Reads ahead (if condition then yes else no) Gives := by
  split
  · exact first ‹_›
  · exact second ‹_›

theorem follow [Shrinks parser] (first : Reads ahead parser First)
    (rest : ∀ middle found, middle.length ≤ ahead.length → First middle found →
      Reads middle (next found) Gives) : Reads ahead (parser >>= next) Gives := by
  constructor
  intro left value h
  obtain ⟨found, middle, taken, h⟩ := bind_eq_ok.mp h
  exact (rest middle found (Shrinks.suffix taken).length_le (first.gives taken)).gives h

theorem shorter [Progresses parser] (reads : Reads ahead parser First) :
    Reads ahead parser fun left value => left.length < ahead.length ∧ First left value :=
  ⟨fun h => ⟨Progresses.shorter h, reads.gives h⟩⟩

theorem tracked [Shrinks parser] (reads : Reads ahead parser First) :
    Reads ahead parser fun left value => left <:+ ahead ∧ First left value :=
  ⟨fun h => ⟨Shrinks.suffix h, reads.gives h⟩⟩

/-- Whatever was read is not looked at. -/
theorem past [Shrinks parser]
    (rest : ∀ middle found, middle.length ≤ ahead.length → Reads middle (next found) Gives) :
    Reads ahead (parser >>= next) Gives := by
  have reads : Reads ahead parser fun _ _ => True := ⟨fun _ => trivial⟩
  exact reads.follow fun middle found behind _ => rest middle found behind

/-- Whatever was read is not looked at, but something was. -/
theorem takes [Shrinks parser] [Progresses parser]
    (rest : ∀ middle found, middle.length < ahead.length → Reads middle (next found) Gives) :
    Reads ahead (parser >>= next) Gives := by
  have reads : Reads ahead parser fun middle _ => middle.length < ahead.length :=
    ⟨Progresses.shorter⟩
  exact reads.follow fun middle found _ taken => rest middle found taken

theorem given {value : α} (rest : Reads ahead (next value) Gives) :
    Reads ahead (Pure.pure value >>= next) Gives :=
  ⟨rest.gives⟩

theorem get {next : List Lexeme → Parser β} (rest : Reads ahead (next ahead) Gives) :
    Reads ahead (MonadState.get >>= next) Gives :=
  ⟨rest.gives⟩

theorem mark {next : Nat → Parser β} (rest : Reads ahead (next ahead.length) Gives) :
    Reads ahead (Parse.mark >>= next) Gives :=
  ⟨rest.gives⟩

theorem extentFrom {before : Nat} {next : Extent → Parser β}
    (rest : Reads ahead (next ⟨before, ahead.length⟩) Gives) :
    Reads ahead (Parse.extentFrom before >>= next) Gives :=
  ⟨rest.gives⟩

theorem peekAt {next : Option Lexeme → Parser β}
    (rest : Reads ahead (next ahead[distance]?) Gives) :
    Reads ahead (Parse.peekAt distance >>= next) Gives :=
  ⟨rest.gives⟩

theorem peek {next : Option Lexeme → Parser β} (rest : Reads ahead (next ahead[0]?) Gives) :
    Reads ahead (Parse.peek >>= next) Gives :=
  ⟨rest.gives⟩

theorem at? {next : Bool → Parser β}
    (rest : Reads ahead (next (ahead[distance]?.any (·.is text))) Gives) :
    Reads ahead (Parse.at? text distance >>= next) Gives :=
  ⟨rest.gives⟩

theorem skip {count : Nat} {next : Unit → Parser β}
    (rest : ∀ middle : List Lexeme, middle.length = ahead.length - count →
      Reads middle (next ()) Gives) : Reads ahead (Parse.skip count >>= next) Gives :=
  ⟨(rest (ahead.drop count) List.length_drop).gives⟩

/-- A mark or word that is taken decides how to go on. -/
theorem eat_cons (first : ∀ lexeme rest, ahead = lexeme :: rest → Reads rest yes Gives)
    (second : Reads ahead no Gives) :
    Reads ahead (Parse.eat text >>= fun found => if found = true then yes else no) Gives := by
  constructor
  intro left value h
  simp only [eat_bind, Bool.false_eq_true, if_true, if_false] at h
  split_ifs at h with found
  · obtain ⟨lexeme, rest, -, rfl⟩ := head_of_any found
    exact (first lexeme rest rfl).gives h
  · exact second.gives h

theorem eat (first : ∀ rest, rest.length < ahead.length → Reads rest yes Gives)
    (second : Reads ahead no Gives) :
    Reads ahead (Parse.eat text >>= fun found => if found = true then yes else no) Gives :=
  eat_cons (fun _ rest same => first rest (same ▸ Nat.lt_succ_self _)) second

end Reads

theorem collectUntil_reads (stops : List String) (angles : Bool) (ahead : List Lexeme) :
    Reads ahead (collectUntil stops angles) fun left found => ahead = found ++ left :=
  ⟨fun h => (collectUntil_eq_ok h).1⟩

section Repetitions

/-! ## Repetitions -/

variable {α : Type}

/-- Rows of values between marks that can be put together. -/
structure Chains (Row : Nat → Nat → List α → Prop) : Prop where
  nil : ∀ {ahead left}, Row ahead left []
  widen : ∀ {ahead ahead' left left' values}, Row ahead left values → ahead ≤ ahead' →
    left' ≤ left → Row ahead' left' values
  append : ∀ {ahead middle left values others}, Row ahead middle values → Row middle left others →
    middle ≤ ahead → left ≤ middle → Row ahead left (values ++ others)

variable {Row : Nat → Nat → List α → Prop}

/-- A repetition reads a row if each step does. A step that goes on may count on it that it took a
lexeme, because otherwise the repetition does not end. -/
theorem Reads.many (chains : Chains Row) {step : Parser (List α × Bool)} [Shrinks step]
    (each : ∀ ahead, Reads ahead step fun left found =>
      (found.2 = true → left.length < ahead.length) → Row ahead.length left.length found.1)
    (ahead : List Lexeme) :
    Reads ahead (Parse.many step) fun left found => Row ahead.length left.length found := by
  constructor
  intro left found h
  rw [many_eq_ok_iff] at h
  induction h with
  | last taken => exact (each _).gives taken fun more => by cases more
  | next taken shorter rest ih =>
    have behind := (Shrinks.suffix (many_eq_ok_iff.mpr rest)).length_le
    exact chains.append ((each _).gives taken fun _ => shorter) ih shorter.le behind

theorem Reads.separated (chains : Chains Row) [Shrinks done] {item : Parser α} [Shrinks item]
    (each : ∀ ahead, Reads ahead item fun left value => Row ahead.length left.length [value])
    (ahead : List Lexeme) :
    Reads ahead (Parse.separated separator done item) fun left found =>
      Row ahead.length left.length found := by
  refine many chains (fun ahead => .past fun before last front => .ite (fun _ => ?_) fun _ => ?_) _
  · exact .pure fun _ => chains.nil
  · refine (each before).follow fun middle value _ row => .past fun left more back => ?_
    exact .pure fun _ => chains.widen row front back

end Repetitions

section Yields

/-! ## Values at the end of given lexemes -/

/-- Wherever the parser stands among the last of all lexemes, it reads nothing but values with the
property. -/
structure Yields {α : Type} (all : List Lexeme) (parser : Parser α) (Holds : α → Prop) : Prop where
  reads : ∀ {ahead : List Lexeme}, ahead <:+ all → Reads ahead parser fun _ => Holds

namespace Yields

variable {α β : Type} {all : List Lexeme} {parser : Parser α} {next : α → Parser β}
  {First : α → Prop} {Holds : β → Prop}

theorem holds (yields : Yields all parser First) {left : List Lexeme} {value : α}
    (h : parser all = .ok (value, left)) : First value :=
  (yields.reads List.suffix_rfl).gives h

theorem any : Yields all parser fun _ => True :=
  ⟨fun _ => ⟨fun _ => trivial⟩⟩

theorem mono {Second : α → Prop} (yields : Yields all parser First)
    (imp : ∀ value, First value → Second value) : Yields all parser Second :=
  ⟨fun behind => (yields.reads behind).mono fun {_ value} => imp value⟩

theorem bind [Shrinks parser] (first : Yields all parser First)
    (rest : ∀ found, First found → Yields all (next found) Holds) :
    Yields all (parser >>= next) Holds := by
  refine ⟨fun behind => (first.reads behind).tracked.follow fun middle found _ known => ?_⟩
  exact (rest found known.2).reads (known.1.trans behind)

/-- What was read is not looked at. -/
theorem behind [Shrinks parser] (rest : ∀ found, Yields all (next found) Holds) :
    Yields all (parser >>= next) Holds :=
  any.bind fun found _ => rest found

theorem pure {value : β} (holds : Holds value) : Yields all (Pure.pure value) Holds :=
  ⟨fun _ => .pure holds⟩

theorem throw : Yields all (MonadExcept.throw complaint) Holds :=
  ⟨fun _ => .throw⟩

theorem refuse : Yields all (Parse.refuse wanted) Holds :=
  ⟨fun _ => .refuse⟩

theorem branch [Decidable condition] {yes no : Parser β} (first : condition → Yields all yes Holds)
    (second : Yields all no Holds) : Yields all (if condition then yes else no) Holds :=
  ⟨fun behind => .ite (fun holds => (first holds).reads behind) fun _ => second.reads behind⟩

theorem ite [Decidable condition] {yes no : Parser β} (first : Yields all yes Holds)
    (second : Yields all no Holds) : Yields all (if condition then yes else no) Holds :=
  branch (fun _ => first) second

theorem many {step : Parser (List β × Bool)} [Shrinks step]
    (each : Yields all step fun found => ∀ value ∈ found.1, Holds value) :
    Yields all (Parse.many step) fun found => ∀ value ∈ found, Holds value := by
  refine ⟨fun behind => ⟨fun h => ?_⟩⟩
  rw [many_eq_ok_iff] at h
  induction h with
  | last taken => exact (each.reads behind).gives taken
  | next taken _ _ ih =>
    refine List.forall_mem_append.mpr ⟨(each.reads behind).gives taken, ih ?_⟩
    exact (Shrinks.suffix taken).trans behind

theorem separated [Shrinks done] {item : Parser β} [Shrinks item] (each : Yields all item Holds) :
    Yields all (Parse.separated separator done item) fun found => ∀ value ∈ found, Holds value := by
  refine many (behind fun last => .ite (.pure (by simp)) ?_)
  exact each.bind fun value holds => .behind fun _ => .pure (by simpa using holds)

end Yields

end Yields

end ActorGlue.Parse
