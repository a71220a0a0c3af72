import ActorGlue.Proofs.Parse.TypeNesting

/-!
# Items are nested

The parsers of items read trees that are nested in the lexemes they take, and the arguments of the
attributes lie inside of these. A member may be read from no lexemes at all, but then the block
around it is read for ever.
-/

namespace ActorGlue

/-- The place of what an attribute has after its path. -/
def AttributeInput.content? {σ : Type} : AttributeInput σ → Option σ
  | .word => none
  | .list group => some group
  | .value content => content

/-- What the attribute has after its path lies inside of it. -/
def Attribute.Holds (a : Attribute Extent) : Prop :=
  ∀ extent ∈ a.input.content?, extent.before ≤ a.place.before ∧ a.place.after ≤ extent.after

section Attributes

variable {σ : Type}

def MethodInput.attributes : MethodInput σ → List (Attribute σ)
  | .receiver r => r.attributes
  | .typed i => i.attributes

/-- The attributes of a member and of its inputs. -/
def Member.allAttributes : Member σ → List (Attribute σ)
  | .method m => m.attributes ++ m.inputs.flatMap (·.attributes)
  | .other m => m.attributes

/-- The attributes of an item and of everything inside of it. -/
def Item.allAttributes : Item σ → List (Attribute σ)
  | .struct s => s.attributes ++ s.fields.flatMap (·.attributes)
  | .impl i => i.attributes ++ i.members.flatMap (·.allAttributes)
  | .other i => i.attributes

end Attributes

section Drawn

/-! ## The outlines of parts of items at their places in the source -/

variable (source : Source)

abbrev Attribute.drawn (a : Attribute Extent) : Outline Span :=
  (a.map source.span).outline source.slice

abbrev Field.drawn (d : Field Extent) : Outline Span :=
  (d.map source.span).outline source.slice

abbrev MethodInput.drawn (input : MethodInput Extent) : Outline Span :=
  (input.map source.span).outline source.slice

abbrev Member.drawn (member : Member Extent) : Outline Span :=
  (member.map source.span).outline source.slice

abbrev Item.drawn (item : Item Extent) : Outline Span :=
  (item.map source.span).outline source.slice

end Drawn

variable {ahead all : List Lexeme} {left before start : Nat} {marks : List (Attribute Extent)}
  {visible : Visibility Extent}

namespace Parse

variable (source : Source)

theorem Reads.atSelf {β : Type} {distance : Nat} {next : Bool → Parser β}
    {Gives : List Lexeme → β → Prop} (rest : ∀ found, Reads ahead (next found) Gives) :
    Reads ahead (Parse.atSelf distance >>= next) Gives :=
  ⟨(rest _).gives⟩

theorem attributeInput_reads (ahead : List Lexeme) :
    Reads ahead attributeInput fun left input =>
      ∀ extent ∈ input.content?, extent.before ≤ ahead.length ∧ left.length ≤ extent.after := by
  refine .mark (.peek (.ite (fun _ => .past fun left _ _ => .extentFrom (.pure ?_)) fun _ => ?_))
  · rintro _ ⟨⟩
    exact ⟨le_rfl, le_rfl⟩
  refine .eat (fun rest taken => .mark (.past fun left value _ => .extentFrom (.pure ?_))) ?_
  · cases value with
    | nil =>
      intro extent found
      cases found
    | cons first others =>
      rintro _ ⟨⟩
      exact ⟨taken.le, le_rfl⟩
  · refine .pure fun extent found => ?_
    cases found

theorem oneAttribute_holds : Yields all oneAttribute Attribute.Holds := by
  have front : ∀ ahead, Reads ahead attributeFront fun left front =>
      ∀ extent ∈ front.2.2.content?,
        extent.before ≤ ahead.length ∧ left.length ≤ extent.after := by
    refine fun ahead => .past fun first _ start => .past fun second _ opens => ?_
    refine .past fun third _ named => ?_
    refine (attributeInput_reads third).follow fun left input _ inside => .pure ?_
    intro extent found
    have bounds := inside extent found
    omega
  rw [oneAttribute]
  refine ⟨fun _ => .mark (.skip fun first taken => (front first).follow fun _ found _ inside => ?_)⟩
  refine .takes fun left _ closes => .extentFrom (.pure ?_)
  intro extent found
  have bounds := inside extent found
  dsimp only
  omega

/-- What the attributes of an item have after their paths lies inside of them. -/
theorem item_holds : Yields all item fun value => ∀ a ∈ value.allAttributes, a.Holds := by
  let known : Known := ⟨Attribute.Holds, fun _ => True, fun _ => True⟩
  have holds : known.Of all :=
    ⟨oneAttribute_holds, fun _ => .any, fun _ => .mono .any (by simp [known]), fun _ => .any⟩
  refine (item_yields holds).mono fun value inner => ?_
  cases value with
  | other found => exact inner
  | struct found =>
    refine List.forall_mem_append.mpr ⟨inner.1, List.forall_mem_flatMap.mpr inner.2.2⟩
  | impl found =>
    refine List.forall_mem_append.mpr ⟨inner.1, List.forall_mem_flatMap.mpr fun member among => ?_⟩
    have own := inner.2.2 member among
    cases member with
    | other found => exact own
    | method found =>
      refine List.forall_mem_append.mpr ⟨own.1, List.forall_mem_flatMap.mpr fun input among => ?_⟩
      have given := own.2.2 input among
      cases input with
      | receiver found => exact given
      | typed found => exact given.1

variable [source.Ordered]

theorem attributes_draws (innerOnly : Bool) :
    Draws source (attributes innerOnly) fun found => found.map (Attribute.drawn source) := by
  have one : Draws source oneAttribute fun a => [a.drawn source] := by
    intro ahead
    rw [oneAttribute]
    refine .mark (.skip fun first taken => .past fun second _ back => ?_)
    exact .takes fun left _ closes => .extentFrom (.pure (.leaf rfl (by omega)))
  refine Reads.many (lays_chains source _) fun ahead => .at? (.at? (.ite (fun _ => ?_) fun _ => ?_))
  · exact (one ahead).follow fun left a _ lays => .pure fun _ => lays
  · exact .pure fun _ => .nil

theorem visibility_draws :
    Draws source visibility fun visibility => [(visibility.map source.span).outline] := by
  intro ahead
  refine .get ?_
  cases ahead with
  | nil => exact .pure (.unplaced (.inl rfl))
  | cons lexeme rest =>
    have some : 0 < (lexeme :: rest).length := Nat.succ_pos _
    refine .ite (fun _ => .skip fun middle taken => .extentFrom ?_) fun _ => .at? ?_
    · refine .at? (.get (.ite (fun _ => ?_) fun _ => .pure (.leaf rfl (by omega))))
      refine .takes fun closed _ closes => .extentFrom (.past fun left _ back => .pure ?_)
      exact .widen (.leaf rfl (by omega)) le_rfl back
    · refine .ite (fun _ => .skip fun left taken => ?_) fun _ => .pure (.unplaced (.inl rfl))
      exact .extentFrom (.pure (.leaf rfl (by omega)))

theorem paramRest_draws :
    Draws source paramRest fun param =>
      [.node .genericParam (source.span param.place) none []] := by
  intro ahead
  refine .mark (.peek ?_)
  cases ahead with
  | nil => exact .refuse
  | cons lexeme rest =>
    have some : 0 < (lexeme :: rest).length := Nat.succ_pos _
    refine .ite (fun _ => ?_) fun _ => .ite (fun _ => ?_) fun _ => ?_
    · refine .skip fun middle taken => .extentFrom (.given (.past fun left _ back => .pure ?_))
      exact .widen (.leaf rfl (by omega)) le_rfl back
    · refine .skip fun middle taken => .takes fun named name word => .extentFrom (.given ?_)
      exact .past fun left _ back => .pure (.widen (.leaf rfl (by omega)) le_rfl back)
    · refine .takes fun named name word => .extentFrom (.given (.past fun left _ back => .pure ?_))
      exact .widen (.leaf rfl word) le_rfl back

theorem generics_draws :
    Draws source generics fun generics => [(generics.map source.span).outline] := by
  have param : Draws source genericParam fun param =>
      [.node .genericParam (source.span param.place) none []] := by
    rw [genericParam]
    refine fun ahead => .past fun rest _ behind => ?_
    exact (paramRest_draws source rest).mono fun lays => lays.widen behind le_rfl
  refine fun ahead => .mark (.eat (fun rest opens => ?_) (.pure (.unplaced (.inr rfl))))
  refine (draws_separated param rest).follow fun middle params behind lays => ?_
  refine .takes fun left _ closes => .extentFrom (.pure ?_)
  simp only [Generics.outline, Generics.map, List.map_map]
  exact lays.node rfl opens.le closes.le (by omega)

omit [source.Ordered] in
/-- A where clause has no place. -/
theorem whereClause_reads (generics : Generics Extent) (ahead : List Lexeme) :
    Reads ahead (whereClause generics) fun _ found =>
      (found.map source.span).outline = (generics.map source.span).outline :=
  .eat (fun _ _ => .past fun _ _ _ => .pure rfl) (.pure rfl)

section Structures

/-! ## Structures -/

theorem field_draws (named : Bool) : Draws source (field named) fun d => [d.drawn source] := by
  refine fun ahead => .mark ((attributes_draws source false ahead).follow fun first found start own => ?_)
  refine (visibility_draws source first).follow fun second visibility back seen => ?_
  refine .past fun third name behind => ?_
  refine (ty_draws source true third).shorter.follow fun left ty _ typed => .extentFrom (.pure ?_)
  have rest := seen.append (typed.2.widen behind le_rfl) back (by omega)
  simp only [Field.drawn, Field.map, Field.outline, List.map_map]
  exact (own.append rest start (by omega)).node rfl le_rfl le_rfl (by omega)

theorem structBody_reads (generics : Generics Extent) (ahead : List Lexeme) :
    Reads ahead (structBody generics) fun left body =>
      (body.1.map source.span).outline = (generics.map source.span).outline ∧
        Lays source ahead.length left.length (body.2.1.map (Field.drawn source)) := by
  refine .eat (fun rest opens => ?_) (.eat (fun rest opens => ?_) (.pure ⟨rfl, .nil⟩))
  · refine (draws_separated (field_draws source true) rest).follow fun left fields _ row => ?_
    exact .pure ⟨rfl, row.widen opens.le le_rfl⟩
  · refine (draws_separated (field_draws source false) rest).follow fun _ fields _ row => ?_
    refine .takes fun closed _ closes => ?_
    refine (whereClause_reads source generics closed).follow fun left found back same => ?_
    exact .pure ⟨same, row.widen opens.le (by omega)⟩

theorem structFront_draws : Draws source structFront fun front =>
    (front.2.1.map source.span).outline :: front.2.2.1.map (Field.drawn source) := by
  refine fun ahead => .takes fun first _ word => .takes fun second _ named => ?_
  refine (generics_draws source second).follow fun third generics back own => ?_
  refine (whereClause_reads source generics third).follow fun fourth bound behind same => ?_
  refine (structBody_reads source bound fourth).follow fun left body rest fields => .pure ?_
  have all := own.append (fields.2.widen behind le_rfl) back (by omega)
  simp only [fields.1, same]
  exact all.widen (by omega) le_rfl

theorem structItem_reads (own : Lays source before ahead.length
      (marks.map (Attribute.drawn source) ++ [(visible.map source.span).outline]))
    (behind : ahead.length ≤ before) :
    Reads ahead (structItem before marks visible) fun left s =>
      Lays source before left.length [Item.drawn source (.struct s)] := by
  rw [structItem]
  refine (structFront_draws source ahead).follow fun middle front back body => ?_
  refine .takes fun left _ closes => .extentFrom (.pure ?_)
  have row := own.append body behind back
  simp only [Item.drawn, Item.map, StructItem.map, Item.outline, List.map_map]
  simp only [List.append_assoc, List.cons_append, List.nil_append] at row ⊢
  exact row.node rfl le_rfl closes.le (by omega)

end Structures

section Members

/-! ## Members of implementation blocks -/

theorem pattern_draws :
    Draws source pattern fun pattern => [(pattern.map source.span).outline] := by
  intro ahead
  have other : Reads ahead (otherPattern ahead.length) fun left pattern =>
      Lays source ahead.length left.length [(pattern.map source.span).outline] := by
    refine (collectUntil_reads _ _ ahead).follow fun left found _ same => ?_
    refine .ite (fun _ => .refuse) fun some => .extentFrom (.pure (.leaf rfl ?_))
    have taken := List.length_pos_iff.mpr (mt List.isEmpty_iff.mpr some)
    rw [same, List.length_append]
    omega
  refine .mark (.at? (.at? (.peekAt (.peekAt ?_))))
  dsimp only
  split
  · exact other
  · rename_i distance lexeme found
    have some := (List.getElem?_eq_some_iff.mp found).1
    refine .ite (fun _ => .skip fun middle taken => ?_) fun _ => other
    refine .eat (fun rest _ => .past fun left _ back => .given (.extentFrom (.pure ?_)))
      (.given (.extentFrom (.pure ?_)))
    · exact .leaf rfl (by omega)
    · exact .leaf rfl (by omega)

variable {source} in
theorem receiver_drawn {middle : Nat} {reference mutable : Bool} {lifetime : Option String}
    {ty : Option (Ty Extent)} (own : Lays source start middle (marks.map (Attribute.drawn source)))
    (typed : Lays source middle left (Ty.outline? (ty.map (Ty.map source.span))))
    (behind : middle ≤ start) (proper : left < middle) :
    Lays source start left [MethodInput.drawn source
      (.receiver ⟨⟨middle, left⟩, marks, reference, mutable, lifetime, ty⟩)] := by
  simp only [MethodInput.drawn, MethodInput.map, Receiver.map, MethodInput.outline, List.map_map]
  refine own.receiver (fun tree member => ?_) typed behind proper
  obtain ⟨a, -, rfl⟩ := List.mem_map.mp member
  rfl

/-- The input after its attributes, whose receiver begins behind these. -/
theorem plainInput_reads (own : Lays source start ahead.length (marks.map (Attribute.drawn source)))
    (behind : ahead.length ≤ start) (first : Lexeme) (some : 0 < ahead.length) :
    Reads ahead (plainInput start ahead.length marks first) fun left input =>
      Lays source start left.length [input.drawn source] := by
  refine .at? (.atSelf fun self => .ite (fun _ => .skip fun middle taken => ?_) fun _ => ?_)
  · refine .eat (fun rest colon => ?_) (.given (.extentFrom (.pure ?_)))
    · refine (ty_draws source true rest).follow fun left ty back typed => ?_
      refine .given (.extentFrom (.pure ?_))
      exact receiver_drawn own (typed.widen (by omega) le_rfl) behind (by omega)
    · exact receiver_drawn own .nil behind (by omega)
  · refine (pattern_draws source ahead).follow fun middle pattern back seen => ?_
    refine .takes fun rest _ colon => ?_
    refine (ty_draws source true rest).follow fun left ty back' typed => .extentFrom (.pure ?_)
    have row := seen.append (typed.widen colon.le le_rfl) back (by omega)
    simp only [MethodInput.drawn, MethodInput.map, TypedInput.map, MethodInput.outline,
      List.map_map]
    exact (own.append row behind (by omega)).node rfl le_rfl le_rfl (by omega)

theorem methodInput_draws : Draws source methodInput fun input => [input.drawn source] := by
  intro ahead
  rw [methodInput]
  refine .mark ((attributes_draws source false ahead).follow fun middle found behind own => ?_)
  refine .mark (.peek ?_)
  cases middle with
  | nil => exact .refuse
  | cons first rest =>
    have some : 0 < (first :: rest).length := Nat.succ_pos _
    have plain := plainInput_reads source own behind first some
    refine .ite (fun _ => .peekAt (.at? (.atSelf fun self => ?_))) fun _ => plain
    refine .ite (fun _ => .skip fun left taken => .extentFrom (.pure ?_)) fun _ => plain
    exact receiver_drawn own .nil behind (by omega)

theorem method_reads {qualifiers : List String} (own : Lays source before ahead.length
      (marks.map (Attribute.drawn source) ++ [(visible.map source.span).outline]))
    (behind : ahead.length ≤ before) :
    Reads ahead (method before marks visible qualifiers) fun left m =>
      Lays source before left.length [Member.drawn source (.method m)] := by
  rw [Parse.method]
  refine .takes fun first _ word => .takes fun second _ named => ?_
  refine (generics_draws source second).follow fun third generics back seen => ?_
  refine .takes fun opened _ opens => ?_
  refine (draws_separated (methodInput_draws source) opened).follow fun fourth inputs back' row => ?_
  refine .takes fun closed _ closes => ?_
  refine (output_draws (ty_draws source true) closed).follow fun fifth output back'' typed => ?_
  refine (whereClause_reads source generics fifth).follow fun sixth bound later same => ?_
  refine .past fun left _ last => .extentFrom (.pure ?_)
  have inner := (row.widen opens.le closes.le).append typed (by omega) back''
  have parts := own.append ((seen.append inner back (by omega)).widen (by omega) le_rfl) behind
    (by omega)
  simp only [Member.drawn, Member.map, Method.map, Member.outline, List.map_map, same]
  simp only [Ty.map?_eq_map, List.append_assoc, List.cons_append, List.nil_append] at parts ⊢
  exact parts.node rfl le_rfl (by omega) (by omega)

/-- A member that took something is nested in what it took. -/
theorem member_reads (ahead : List Lexeme) :
    Reads ahead member fun left m => left.length < ahead.length →
      Lays source ahead.length left.length [m.drawn source] := by
  rw [Parse.member]
  refine .mark ((attributes_draws source false ahead).follow fun first found behind own => ?_)
  refine (visibility_draws source first).follow fun second visibility back seen => ?_
  refine .past fun third _ skipped => .get (.at? (.ite (fun _ => ?_) fun _ => ?_))
  · have front := (own.append seen behind back).widen le_rfl skipped
    refine .skip fun rest taken => ?_
    refine (method_reads source (front.widen le_rfl (by omega)) (by omega)).follow
      fun left m _ lays => .pure fun _ => lays
  · refine .past fun left _ last => .extentFrom (.pure fun proper => ?_)
    simp only [Member.drawn, Member.map, OtherMember.map, Member.outline, List.map_map]
    exact own.node rfl le_rfl (by omega) proper

theorem members_draws : Draws source members fun found => found.map (Member.drawn source) := by
  refine Reads.many (lays_chains source _) fun ahead => ?_
  refine .at? (.ite (fun _ => .pure fun _ => .nil) fun _ => .get (.ite (fun _ => .refuse) ?_))
  intro _
  exact (member_reads source ahead).follow fun left m _ lays => .pure fun taken => lays (taken rfl)

end Members

section Items

/-! ## Items -/

/-- The outlines of a type and of the trait that it implements. -/
abbrev targetTrees (target : Option (TyPath Extent) × Ty Extent) : List (Outline Span) :=
  target.2.drawn source :: (target.1.map fun path => (path.map source.span).outline).toList

theorem implTypes_draws (negative : Bool) :
    Draws source (implTypes negative) (targetTrees source) := by
  refine fun ahead => (ty_draws source false ahead).follow fun middle first behind lays => ?_
  refine .eat (fun rest word => ?_) (.ite (fun _ => .refuse) fun _ => .pure lays)
  cases first with
  | path path =>
    refine (ty_draws source false rest).follow fun left ty back typed => .pure ?_
    have row := lays.append (typed.widen word.le le_rfl) behind (by omega)
    exact row.perm (List.Perm.swap _ _ _)
  | _ => exact .throw

theorem implFront_draws : Draws source implFront fun front =>
    (front.2.1.map source.span).outline ::
      targetTrees source front.2.2.1 ++ front.2.2.2.2.map (Member.drawn source) := by
  have generics : Draws source implGenerics fun generics => [(generics.map source.span).outline] :=
    fun ahead => .at? (.peekAt (.ite (fun _ => generics_draws source ahead)
      fun _ => .pure (.unplaced (.inr rfl))))
  rw [implFront]
  refine fun ahead => .past fun first _ start => .past fun second _ start' => ?_
  refine .takes fun third _ word => ?_
  refine (generics third).follow fun fourth found back own => .at? (.past fun fifth _ back' => ?_)
  refine .skip fun sixth skipped => (implTypes_draws source _ sixth).follow
    fun seventh target taken types => ?_
  refine (whereClause_reads source found seventh).follow fun eighth bound behind same => ?_
  have body : Draws source implBody fun found => found.map (Member.drawn source) := by
    refine fun ahead => .takes fun opened _ opens => .past fun rest _ inner => ?_
    exact (members_draws source rest).mono fun lays => lays.widen (by omega) le_rfl
  refine (body eighth).follow fun left members last lays => .pure ?_
  have inner := types.append (lays.widen behind le_rfl) taken (by omega)
  have parts := own.append (inner.widen (by omega) le_rfl) back (by omega)
  simp only [same]
  exact parts.widen (by omega) le_rfl

theorem implItem_reads (own : Lays source before ahead.length (marks.map (Attribute.drawn source)))
    (behind : ahead.length ≤ before) :
    Reads ahead (implItem before marks) fun left i =>
      Lays source before left.length [Item.drawn source (.impl i)] := by
  rw [implItem]
  refine (implFront_draws source ahead).follow fun middle front back body => ?_
  refine .takes fun left _ closes => .extentFrom (.pure ?_)
  have row := own.append body behind back
  simp only [Item.drawn, Item.map, ImplItem.map, Item.outline, List.map_map, Option.map_map]
  simp only [List.append_assoc, List.cons_append, List.nil_append] at row ⊢
  exact row.node rfl le_rfl closes.le (by omega)

theorem otherItem_reads (own : Lays source before ahead.length
      (marks.map (Attribute.drawn source) ++ [(visible.map source.span).outline]))
    (behind : ahead.length ≤ before) :
    Reads ahead (otherItem before marks visible) fun left i =>
      Lays source before left.length [Item.drawn source (.other i)] := by
  have ends : ∀ {left : List Lexeme} {kind name}, left.length < ahead.length →
      Lays source before left.length
        [Item.drawn source (.other ⟨⟨before, left.length⟩, marks, visible, kind, name⟩)] := by
    intro left kind name taken
    simp only [Item.drawn, Item.map, OtherItem.map, Item.outline, List.map_map]
    exact own.node rfl le_rfl taken.le (by omega)
  refine .get ?_
  rcases splitQualifiers [] ahead with ⟨passed, _ | ⟨keyword, rest⟩⟩
  · exact .refuse
  · refine .ite (fun _ => .past fun middle _ back => ?_) fun _ => .ite (fun _ => ?_) fun _ => ?_
    · exact .takes fun left _ closes => .extentFrom (.pure (ends (by omega)))
    · exact .takes fun left _ taken => .extentFrom (.pure (ends taken))
    · exact ⟨fun h => by cases h⟩

theorem item_draws : Draws source item fun value => [value.drawn source] := by
  intro ahead
  rcases eq_or_ne ahead [] with rfl | some
  · have same : item [] = (refuse "an item" : Parser (Item Extent)) [] := rfl
    exact .of_eq same .refuse
  refine .of_eq (item_apply some) ?_
  refine (attributes_draws source false ahead).follow fun first found behind own => ?_
  refine (visibility_draws source first).follow fun second visibility back seen => .get ?_
  have front := own.append seen behind back
  cases second with
  | nil => exact .refuse
  | cons lexeme rest =>
    refine .ite (fun _ => ?_) fun _ => .ite (fun _ => ?_) fun _ => ?_
    · exact (structItem_reads source front (by omega)).follow fun _ _ _ lays => .pure lays
    · refine (implItem_reads source (own.widen le_rfl back) (by omega)).follow ?_
      exact fun _ _ _ lays => .pure lays
    · exact (otherItem_reads source front (by omega)).follow fun _ _ _ lays => .pure lays

end Items

end Parse

end ActorGlue
