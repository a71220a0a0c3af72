import ActorGlue.Proofs.Parse.TypeWindow

/-!
# Items in a window

What stands between the first lexeme of an item after its attributes and the barrier that ends it
is read the same way in front of anything.
-/

namespace ActorGlue

variable {start distance : Nat} {first : Lexeme}

namespace Window

open Parse

section Readings

variable (w : Window)

instance : Reading w (AttributeInput Extent) (AttributeInput w.Place) :=
  ⟨AttributeInput.map w.leftExtent, AttributeInput.map w.rightExtent⟩

instance : Reading w (Attribute Extent) (Attribute w.Place) :=
  ⟨Attribute.map w.leftExtent, Attribute.map w.rightExtent⟩

instance : Reading w (Visibility Extent) (Visibility w.Place) :=
  ⟨Visibility.map w.leftExtent, Visibility.map w.rightExtent⟩

instance : Reading w (GenericParam Extent) (GenericParam w.Place) :=
  ⟨GenericParam.map w.leftExtent, GenericParam.map w.rightExtent⟩

instance : Reading w (Generics Extent) (Generics w.Place) :=
  ⟨Generics.map w.leftExtent, Generics.map w.rightExtent⟩

instance : Reading w (Field Extent) (Field w.Place) :=
  ⟨Field.map w.leftExtent, Field.map w.rightExtent⟩

instance : Reading w FieldStyle FieldStyle := ⟨fun x => x, fun x => x⟩

instance : Reading w (Pattern Extent) (Pattern w.Place) :=
  ⟨Pattern.map w.leftExtent, Pattern.map w.rightExtent⟩

instance : Reading w (MethodInput Extent) (MethodInput w.Place) :=
  ⟨MethodInput.map w.leftExtent, MethodInput.map w.rightExtent⟩

instance : Reading w (Method Extent) (Method w.Place) :=
  ⟨Method.map w.leftExtent, Method.map w.rightExtent⟩

instance : Reading w (Member Extent) (Member w.Place) :=
  ⟨Member.map w.leftExtent, Member.map w.rightExtent⟩

end Readings

variable {w : Window} {ahead : List Lexeme}

/-- A word of a path after the first, and whether another one follows. -/
theorem Sim.pathWord : w.Agree (do
      let word ← Parse.expectIdent "a path segment"
      return ([word], ← Parse.eat "::") : Parser (List String × Bool)) (do
      let word ← Parse.expectIdent "a path segment"
      return ([word], ← Parse.eat "::") : Parser (List String × Bool)) ahead :=
  .expectIdent fun word _ _ => .eat (fun _ _ => .pure ([word], true) rfl rfl)
    (.pure ([word], false) rfl rfl)

theorem Sim.words {first second : Except Complaint (List String × List Lexeme)}
    (sim : @Sim w _ _ (readingList w) first second) : w.Sim first second := by
  intro value last ran
  obtain ⟨words, rfl, ran'⟩ := sim value last ran
  exact ⟨_, rfl, ran'⟩

theorem Sim.pathWords : w.Agree Parse.pathWords Parse.pathWords ahead := by
  unfold Parse.pathWords
  refine .eat (fun _ _ => .words (.many fun before after items more _ taken _ => ?_))
    (.pure [] rfl rfl)
  obtain ⟨⟨words, _⟩, same, taken'⟩ := Sim.pathWord _ _ taken
  obtain ⟨rfl, rfl⟩ := Prod.mk.inj same
  have whole : items = List.map (fun word => word) items := (List.map_id _).symm
  exact ⟨items, whole, taken'.trans
    (congrArg (fun found => Except.ok ((found, more), w.right after)) whole)⟩

theorem Sim.wordPath : w.Agree Parse.wordPath Parse.wordPath ahead := by
  unfold Parse.wordPath
  refine .bind .ate fun _ _ _ _ => .expectIdent fun first _ _ => ?_
  exact .bind .pathWords fun others _ _ _ => .pure (splitWords first others) rfl rfl

theorem Sim.attributeInput (within : ahead.length ≤ w.size) :
    w.Agree Parse.attributeInput Parse.attributeInput ahead := by
  unfold Parse.attributeInput
  rw [Agree, mark_bind, mark_bind, peek_bind, peek_bind, left_head, right_head]
  refine .ite (fun _ => ?_) fun _ => ?_
  · refine .bind .group fun _ after _ taken => ?_
    exact .extentFrom within (shorter_of_ok taken) fun place =>
      .pure (AttributeInput.list place) rfl rfl
  refine .eat (fun rest fewer => ?_) (.pure AttributeInput.word rfl rfl)
  rw [Agree, if_pos rfl, mark_bind, mark_bind]
  refine .bind .collectUntil fun value after _ taken => ?_
  cases value with
  | nil => exact .pure (AttributeInput.value none) rfl rfl
  | cons first others =>
    exact .extentFrom (by omega) (shorter_of_collected taken (by simp)) fun place =>
      .pure (AttributeInput.value (some place)) rfl rfl

theorem Sim.attributeFront (within : ahead.length ≤ w.size) :
    w.Agree Parse.attributeFront Parse.attributeFront ahead := by
  unfold Parse.attributeFront
  refine .bind .ate fun inner first le _ => .expect fun rest fewer => ?_
  refine .bind .wordPath fun words after le' _ => ?_
  exact .bind (.attributeInput (by omega)) fun input _ _ _ =>
    .pure (inner, words, input) rfl rfl

theorem Sim.oneAttribute (within : ahead.length ≤ w.size) :
    w.Agree Parse.oneAttribute Parse.oneAttribute ahead := by
  rw [Agree, Parse.oneAttribute, mark_bind, mark_bind]
  refine .skip fun rest one => ?_
  refine .bind (.attributeFront (by omega)) fun front after le _ => ?_
  refine .expect fun last fewer => ?_
  exact .extentFrom within (by omega) fun place =>
    .pure (Attribute.mk place front.2.1.1 front.2.1.2 front.1 front.2.2) rfl rfl

theorem Sim.attributes {innerOnly : Bool} (within : ahead.length ≤ w.size) :
    w.Agree (Parse.attributes innerOnly) (Parse.attributes innerOnly) ahead := by
  unfold Parse.attributes
  refine .repeated fun before le => ?_
  rw [Agree, attributeStep, at?_bind, at?_bind, at?_bind, at?_bind,
    left_both (stop_is (by decide)) fun second => !innerOnly || second.any (·.is "!")]
  refine .ite (fun _ => ?_) fun _ => .pure ([], false) rfl rfl
  exact .bind (.oneAttribute (le.trans within)) fun found _ _ _ =>
    .pure ([found], true) rfl rfl

theorem isRestriction_left (rest : List Lexeme) :
    isRestriction (w.left rest) = isRestriction (w.right rest) := by
  cases rest with
  | nil =>
    have word : w.stop.text ≠ "in" := stop_ne (by decide)
    have others : ["crate", "self", "super"].contains w.stop.text = false := by
      simp [stop_ne (show barriers.contains "crate" = false by decide),
        stop_ne (show barriers.contains "self" = false by decide),
        stop_ne (show barriers.contains "super" = false by decide)]
    simp only [left_nil, right_nil, isRestriction, word, others, decide_false, Bool.false_or,
      Bool.false_and]
  | cons inner rest =>
    rw [left_cons, right_cons, isRestriction, isRestriction, List.head?_eq_getElem?,
      List.head?_eq_getElem?, left_head, right_head]

/-- A visibility restricted to a place begins the same way in both runs. -/
theorem restricts_left (ahead : List Lexeme) :
    ((w.left ahead)[0]?.any (·.is "(") && isRestriction ((w.left ahead).drop 1)) =
      ((w.right ahead)[0]?.any (·.is "(") && isRestriction ((w.right ahead).drop 1)) := by
  cases ahead with
  | nil => simp [stop_is (show barriers.contains "(" = false by decide)]
  | cons first rest =>
    change (first.is "(" && isRestriction (w.left rest)) =
      (first.is "(" && isRestriction (w.right rest))
    rw [isRestriction_left]

theorem Sim.visibility (within : ahead.length ≤ w.size) :
    w.Agree Parse.visibility Parse.visibility ahead := by
  cases ahead with
  | nil =>
    have inherited : w.Sim ((Pure.pure .inherited : Parser (Visibility Extent)) (w.left []))
        ((Pure.pure .inherited : Parser (Visibility Extent)) (w.right [])) :=
      .pure Visibility.inherited rfl rfl
    simpa [Agree, Parse.visibility, get_bind, at?_bind] using inherited
  | cons lexeme rest =>
    change w.Agree (if lexeme.isIdent "pub" then _ else _ : Parser _)
      (if lexeme.isIdent "pub" then _ else _ : Parser _) (lexeme :: rest)
    refine .ite (fun _ => .skip fun rest' one => ?_) fun _ => ?_
    · refine .extentFrom within (by omega) fun everyone => ?_
      rw [Agree, at?_bind, at?_bind, get_bind, get_bind, restricts_left]
      refine .ite (fun _ => ?_) fun _ => .pure (Visibility.everyone everyone) rfl rfl
      refine .bind .group fun _ last le _ => ?_
      refine .extentFrom within (by omega) fun place => .readSince ?_
      exact .pure (Visibility.restricted place
        (Lexeme.join ((lexeme :: rest).take ((lexeme :: rest).length - last.length)))) rfl rfl
    · refine .at? (by simp) fun _ => .ite (fun _ => .skip fun _ one => ?_)
        fun _ => .pure Visibility.inherited rfl rfl
      exact .extentFrom within (by omega) fun place =>
        .pure (Visibility.restricted place "crate") rfl rfl

theorem Sim.genericParam (within : ahead.length ≤ w.size) :
    w.Agree Parse.genericParam Parse.genericParam ahead := by
  unfold Parse.genericParam
  refine .bind (.attributes within) fun _ after le _ => ?_
  have inside : after.length ≤ w.size := le.trans within
  unfold Parse.paramRest
  dsimp only
  rw [Agree, mark_bind, mark_bind, peek_bind, peek_bind, left_head, right_head]
  have finish : ∀ (param : GenericParam w.Place) (rest : List Lexeme), w.Agree (do
        let param ← Pure.pure (w.here param)
        let _ ← Parse.collectUntil [",", ">"] true
        return param : Parser (GenericParam Extent)) (do
        let param ← Pure.pure (w.there param)
        let _ ← Parse.collectUntil [",", ">"] true
        return param : Parser (GenericParam Extent)) rest := fun param rest =>
    .bind (.pure param rfl rfl) fun param _ _ _ => .bind .collectUntil fun _ _ _ _ =>
      .pure param rfl rfl
  cases (after ++ [w.stop])[0]? with
  | none => exact .of_error
  | some lexeme =>
    refine .ite (fun _ => .skip fun _ one => ?_) fun _ => .ite (fun _ => .skip fun _ one => ?_)
      fun _ => .expectIdent fun word rest fewer => ?_
    · exact .extentFrom inside (by omega) fun place => finish ⟨place, .lifetime, lexeme.text⟩ _
    · refine .expectIdent fun word rest fewer => ?_
      exact .extentFrom inside (by omega) fun place => finish ⟨place, .const, word⟩ _
    · exact .extentFrom inside fewer fun place => finish ⟨place, .type, word⟩ _

theorem Sim.generics (within : ahead.length ≤ w.size) :
    w.Agree Parse.generics Parse.generics ahead := by
  unfold Parse.generics
  rw [Agree, mark_bind, mark_bind]
  refine .eat (fun rest fewer => ?_) (.pure (Generics.mk none [] "") rfl rfl)
  refine .bind (.separated (fun _ => .looksAt) fun before le => .genericParam (by omega))
    fun params after le _ => ?_
  refine .expect fun last fewer' => ?_
  exact .extentFrom within (by omega) fun place =>
    .pure (Generics.mk (some place) params "") rfl rfl

theorem Sim.whereClause (found : Generics w.Place) :
    w.Agree (Parse.whereClause (w.here found)) (Parse.whereClause (w.there found)) ahead := by
  unfold Parse.whereClause
  refine .eat (fun _ _ => ?_) (.pure found rfl rfl)
  exact .bind .collectUntil fun clause _ _ _ =>
    .pure (Generics.mk found.place found.params (Lexeme.join clause)) rfl rfl

theorem Sim.field {named : Bool} (within : ahead.length ≤ w.size) :
    w.Agree (Parse.field named) (Parse.field named) ahead := by
  unfold Parse.field
  rw [Agree, mark_bind, mark_bind]
  refine .bind (.attributes within) fun attributes after le _ => ?_
  refine .bind (.visibility (by omega)) fun visibility after' le' _ => ?_
  have name : w.Agree (fieldName named) (fieldName named) after' :=
    .ite (fun _ => .expectIdent fun name _ _ => .expect fun _ _ => .pure (some name) rfl rfl)
      fun _ => .pure none rfl rfl
  refine .bind name fun name rest _ _ => .bind (.ty (by omega)) fun ty last _ taken => ?_
  have shorter := shorter_of_ok taken
  exact .extentFrom within (by omega) fun place =>
    .pure (Field.mk place attributes visibility name ty) rfl rfl

theorem Sim.structBody (found : Generics w.Place) (within : ahead.length ≤ w.size) :
    w.Agree (Parse.structBody (w.here found)) (Parse.structBody (w.there found)) ahead := by
  unfold Parse.structBody
  refine .eat (fun rest fewer => ?_) (.eat (fun rest fewer => ?_)
    (.pure (found, [], .unit) rfl rfl))
  · refine .bind (.separated (fun _ => .looksAt) fun before le => .field (by omega))
      fun fields _ _ _ => ?_
    exact .pure (found, fields, .named) rfl rfl
  · refine .bind (.separated (fun _ => .looksAt) fun before le => .field (by omega))
      fun fields _ _ _ => .expect fun _ _ => ?_
    exact .bind (.whereClause found) fun generics _ _ _ =>
      .pure (generics, fields, .tuple) rfl rfl

theorem Sim.structFront (within : ahead.length ≤ w.size) :
    w.Agree Parse.structFront Parse.structFront ahead := by
  unfold Parse.structFront
  refine .expect fun rest fewer => .expectIdent fun name rest' fewer' => ?_
  refine .bind (.generics (by omega)) fun generics after le _ => ?_
  refine .bind (.whereClause generics) fun generics after' le' _ => ?_
  exact .bind (.structBody generics (by omega)) fun body _ _ _ => .pure (name, body) rfl rfl

/-- A lexeme that is no barrier stands inside of the window. -/
theorem lt_of_any {test : Lexeme → Bool} (apart : test w.stop = false)
    (found : (ahead ++ [w.stop])[distance]?.any test) : distance < ahead.length := by
  by_contra short
  rw [List.getElem?_append_right (not_lt.mp short)] at found
  cases past : distance - ahead.length with
  | zero => simp [past, apart] at found
  | succ more => simp [past] at found

theorem Sim.at?_inside {X α : Type} [Reading w α X] {text : String} {next next' : Bool → Parser α}
    (apart : barriers.contains text = false) (fits : distance ≤ ahead.length)
    (rest : ∀ found : Bool, (found → distance < ahead.length) →
      w.Agree (next found) (next' found) ahead) :
    w.Agree (Parse.at? text distance >>= next) (Parse.at? text distance >>= next') ahead := by
  rw [Agree, at?_bind, at?_bind, left_peek fits, right_peek fits]
  exact rest _ (lt_of_any (stop_is apart))

theorem Sim.atSelf {X α : Type} [Reading w α X] {next next' : Bool → Parser α}
    (fits : distance ≤ ahead.length) (rest : ∀ found : Bool, (found → distance < ahead.length) →
      w.Agree (next found) (next' found) ahead) :
    w.Agree (Parse.atSelf distance >>= next) (Parse.atSelf distance >>= next') ahead := by
  have bind : ∀ (next : Bool → Parser α) (state : List Lexeme),
      (Parse.atSelf distance >>= next) state =
        next (state[distance]?.any (·.is "self") && !state[distance + 1]?.any (·.is "::")) state :=
    fun _ _ => rfl
  rw [Agree, bind, bind, left_peek fits, right_peek fits]
  cases found : (ahead ++ [w.stop])[distance]?.any (·.is "self") with
  | false => exact rest false (by simp)
  | true =>
    have inside : distance + 1 ≤ ahead.length := lt_of_any (stop_is (by decide)) found
    rw [left_peek inside, right_peek inside]
    exact rest _ fun _ => inside

theorem Sim.otherPattern (within : ahead.length ≤ w.size) :
    w.Agree (Parse.otherPattern (w.left ahead).length)
      (Parse.otherPattern (w.right ahead).length) ahead := by
  unfold Parse.otherPattern
  dsimp only
  refine .bind .collectUntil fun found after _ taken => .ite (fun _ => .of_error) fun some => ?_
  exact .extentFrom within (shorter_of_collected taken some) fun place =>
    .pure (Pattern.other place (Lexeme.join found)) rfl rfl

theorem Sim.namedPattern {before : List Lexeme} {name : String} {mutable byRef : Bool}
    (within : before.length ≤ w.size) (shorter : ahead.length < before.length) :
    w.Agree (Parse.namedPattern (w.left before).length name mutable byRef)
      (Parse.namedPattern (w.right before).length name mutable byRef) ahead := by
  unfold Parse.namedPattern
  simp only [pure_bind]
  refine .eat (fun rest fewer => ?_) ?_
  · refine .bind .collectUntil fun found after le _ => ?_
    exact .extentFrom within (by omega) fun place =>
      .pure (Pattern.ident place name mutable byRef (some (Lexeme.join found))) rfl rfl
  · exact .extentFrom within shorter fun place =>
      .pure (Pattern.ident place name mutable byRef none) rfl rfl

theorem Sim.pattern (within : ahead.length ≤ w.size) :
    w.Agree Parse.pattern Parse.pattern ahead := by
  unfold Parse.pattern
  dsimp only
  rw [Agree, mark_bind, mark_bind]
  refine .at?_inside (by decide) (Nat.zero_le _) fun byRef first => ?_
  have fits : (if byRef then 1 else 0) ≤ ahead.length := by
    cases byRef <;> simp_all; omega
  refine .at?_inside (by decide) fits fun mutable second => ?_
  rw [Agree, peekAt_bind, peekAt_bind, peekAt_bind, peekAt_bind]
  generalize reach : (if mutable then (if byRef then 1 else 0) + 1 else if byRef then 1 else 0) =
    distance
  have fits : distance ≤ ahead.length := by
    cases mutable <;> simp_all; omega
  rw [left_peek fits, right_peek fits]
  -- If the name would be the barrier, then what follows it does not matter.
  rcases fits.lt_or_eq with inside | rfl
  · rw [left_peek inside, right_peek inside]
    cases (ahead ++ [w.stop])[distance]? with
    | none => exact .otherPattern within
    | some lexeme =>
      refine .ite (fun _ => .skip fun _ more => ?_) fun _ => .otherPattern within
      exact .namedPattern within (by omega)
  · simp only [List.getElem?_append_right le_rfl, Nat.sub_self, List.getElem?_cons_zero, stop_kind,
      reduceCtorEq, decide_false, Bool.false_and, Bool.false_eq_true, if_false]
    exact .otherPattern within

theorem Sim.plainInput {start : List Lexeme} {attributes : List (Attribute w.Place)}
    (within : start.length ≤ w.size) (le : ahead.length ≤ start.length)
    (head : (ahead ++ [w.stop])[0]? = some first) :
    w.Agree (Parse.plainInput (w.left start).length (w.left ahead).length (w.here attributes) first)
      (Parse.plainInput (w.right start).length (w.right ahead).length (w.there attributes) first) ahead := by
  have inside := le.trans within
  have mut_left : (first.isIdent "mut" && (w.left ahead)[1]?.any (·.is "self")) =
      (first.isIdent "mut" && (w.right ahead)[1]?.any (·.is "self")) := by
    cases ahead with
    | nil =>
      obtain rfl : w.stop = first := by simpa using head
      simp
    | cons lexeme rest => rw [left_peek (by simp), right_peek (by simp)]
  have fits : (first.isIdent "mut" && (w.right ahead)[1]?.any (·.is "self")) →
      1 ≤ ahead.length := by
    intro mutable
    cases ahead with
    | nil =>
      obtain rfl : w.stop = first := by simpa using head
      simp at mutable
    | cons lexeme rest => simp
  unfold Parse.plainInput
  simp only [pure_bind]
  rw [Agree, at?_bind, at?_bind, mut_left]
  generalize (first.isIdent "mut" && (w.right ahead)[1]?.any (·.is "self")) = mutable at fits ⊢
  have fits : (if mutable then 1 else 0) ≤ ahead.length := by cases mutable <;> simp_all
  refine .atSelf fits fun self _ => .ite (fun _ => .skip fun _ more => ?_) fun _ => ?_
  · refine .eat (fun rest fewer => ?_) ?_
    · refine .bind (.ty (by omega)) fun ty last _ _ => ?_
      exact .extentFrom inside (by omega) fun place =>
        .pure (MethodInput.receiver ⟨place, attributes, false, mutable, none, some ty⟩) rfl rfl
    · exact .extentFrom inside (by omega) fun place =>
        .pure (MethodInput.receiver ⟨place, attributes, false, mutable, none, none⟩) rfl rfl
  · refine .bind (.pattern inside) fun pattern after le' _ => ?_
    refine .expect fun rest fewer => ?_
    refine .bind (.ty (by omega)) fun ty last _ _ => ?_
    exact .extentFrom within (by omega) fun place =>
      .pure (MethodInput.typed ⟨place, attributes, pattern, ty⟩) rfl rfl

theorem Sim.inputRest {start : List Lexeme} {attributes : List (Attribute w.Place)}
    (within : start.length ≤ w.size) (le : ahead.length ≤ start.length) :
    w.Agree (Parse.inputRest (w.left start).length (w.here attributes))
      (Parse.inputRest (w.right start).length (w.there attributes)) ahead := by
  unfold Parse.inputRest
  dsimp only
  rw [Agree, mark_bind, mark_bind, peek_bind, peek_bind, left_head, right_head]
  cases head : (ahead ++ [w.stop])[0]? with
  | none => exact .of_error
  | some first =>
    refine .ite (fun reference => ?_) fun _ => .plainInput within le head
    have one : 1 ≤ ahead.length := by
      have found : (ahead ++ [w.stop])[0]?.any (·.isPunct "&") := by rw [head]; exact reference
      exact lt_of_any (stop_isPunct (by decide)) found
    rw [peekAt_bind, peekAt_bind, left_peek one, right_peek one]
    generalize found : (ahead ++ [w.stop])[1]?.filter (·.kind = .lifetime) = lifetime
    have fits : (if lifetime.isSome then 2 else 1) ≤ ahead.length := by
      have inside : lifetime.isSome → 1 < ahead.length := by
        rw [← found, Option.isSome_filter]
        exact lt_of_any (by simp [stop_kind])
      cases present : lifetime.isSome with
      | false => simpa using one
      | true => exact inside present
    refine .at?_inside (by decide) fits fun mutable second => ?_
    generalize reach : (if mutable then (if lifetime.isSome then 2 else 1) + 1
      else if lifetime.isSome then 2 else 1) = distance
    have fits : distance ≤ ahead.length := by
      cases mutable <;> simp_all; omega
    refine .atSelf fits fun self _ => .ite (fun _ => .skip fun _ more => ?_)
      fun _ => .plainInput within le head
    exact .extentFrom (le.trans within) (by omega) fun place =>
      .pure (MethodInput.receiver
        ⟨place, attributes, true, mutable, lifetime.map (·.text), none⟩) rfl rfl

theorem Sim.methodInput (within : ahead.length ≤ w.size) :
    w.Agree Parse.methodInput Parse.methodInput ahead := by
  rw [Agree, Parse.methodInput, mark_bind, mark_bind]
  exact .bind (.attributes within) fun attributes after le _ => .inputRest within le

end Window

end ActorGlue
