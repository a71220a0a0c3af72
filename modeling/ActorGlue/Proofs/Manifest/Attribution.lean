import ActorGlue.Expansion
import ActorGlue.Manifest.Changes
import ActorGlue.Proofs.Manifest.Digest
import ActorGlue.Proofs.Outcome

/-!
# What changes are reported for

Two interfaces are compared by the last entry point of each method and the last state of each name.
Where these agree and the programs differ all the same, the generated glue is named, although it
does not have to differ: it has nothing for payload structures, and of a state it has the name and
the codec.
-/

namespace ActorGlue

namespace Document

section Sameness

mutual

theorem same_of_alike : (a b : Document) → a.Proper → a.Alike b → a.same b = true
  | .null, b, _, alike => by
    cases b <;> simp_all [Alike, same]
  | .bool value, b, _, alike => by
    cases b <;> simp_all [Alike, same, toInt?]
  | .int value, b, _, alike => by
    cases b <;> simp_all [Alike, same, toInt?]
  | .float value, b, proper, _ => proper.elim
  | .text value, b, _, alike => by
    cases b <;> simp_all [Alike, same]
  | .list items, b, proper, alike => by
    cases b with
    | list others => simpa [same] using sameAll_of_alike items others proper alike
    | _ => simp [Alike] at alike
  | .object fields, b, proper, alike => by
    cases b with
    | object others =>
      simpa [same] using ⟨alike.1, sameFields_of_alike fields others proper.2 alike.2⟩
    | _ => simp [Alike] at alike

theorem sameAll_of_alike : (as bs : List Document) → ProperAll as → AlikeAll as bs →
    sameAll as bs = true
  | [], [], _, _ => by simp [sameAll]
  | a :: as, b :: bs, proper, alike => by
    simp [sameAll, same_of_alike a b proper.1 alike.1, sameAll_of_alike as bs proper.2 alike.2]
  | [], _ :: _, _, alike => alike.elim
  | _ :: _, [], _, alike => alike.elim

theorem sameFields_of_alike : (fields others : List (String × Document)) → ProperFields fields →
    AlikeFields fields others → sameFields fields others = true
  | [], _, _, _ => by simp [sameFields]
  | (key, value) :: rest, others, proper, alike => by
    obtain ⟨⟨other, found, here⟩, there⟩ := alike
    simp [sameFields, found, same_of_alike value other proper.1 here,
      sameFields_of_alike rest others proper.2 there]

end

@[simp] theorem same_text_iff {a b : String} : (text a).same (text b) = true ↔ a = b := by
  simp [same]

@[simp] theorem same_nat_iff {a b : Nat} : (nat a).same (nat b) = true ↔ a = b := by
  simp [nat, same, toInt?]

@[simp] theorem same_bool_iff {a b : Bool} : (bool a).same (bool b) = true ↔ a = b := by
  cases a <;> cases b <;> decide

theorem same_object_iff {a b : List (String × Document)} :
    (object a).same (object b) = true ↔ a.length = b.length ∧ sameFields a b = true := by
  simp [same]

/-- Lists are the same if their items are equal, where items are told apart. -/
theorem same_list_iff {α : Type} {f : α → Document}
    (told : ∀ a b, (f a).same (f b) = true ↔ a = b) {as bs : List α} :
    (list (as.map f)).same (list (bs.map f)) = true ↔ as = bs := by
  rw [same]
  induction as generalizing bs with
  | nil => cases bs <;> simp [sameAll]
  | cons a as ih => cases bs <;> simp [sameAll, told, ih]

end Sameness

end Document

section Programs

open Document

theorem MethodNumber.value_inj {a b : MethodNumber} : a.value = b.value ↔ a = b := by
  cases a
  cases b
  simp

theorem Mutability.name_inj {a b : Mutability} : a.name = b.name ↔ a = b := by
  cases a <;> cases b <;> decide

theorem Argument.same_iff (a b : Argument) : a.document.same b.document = true ↔ a = b := by
  cases a
  cases b
  simp [Argument.document, same_object_iff, sameFields, lookup]

theorem EntryPoint.same_iff (a b : EntryPoint) : a.document.same b.document = true ↔ a = b := by
  cases a
  cases b
  simp [EntryPoint.document, same_object_iff, sameFields, lookup, MethodNumber.value_inj,
    Mutability.name_inj, same_list_iff Argument.same_iff]

theorem Actor.same_iff (a b : Actor) : a.document.same b.document = true ↔ a = b := by
  cases a
  cases b
  simp [Actor.document, same_object_iff, sameFields, lookup, same_list_iff EntryPoint.same_iff]

theorem StateField.same_iff (a b : StateField) : a.document.same b.document = true ↔ a = b := by
  cases a
  cases b
  simp [StateField.document, same_object_iff, sameFields, lookup]

theorem StateStruct.same_iff (a b : StateStruct) : a.document.same b.document = true ↔ a = b := by
  cases a
  cases b
  simp [StateStruct.document, same_object_iff, sameFields, lookup, same_list_iff StateField.same_iff]

theorem PayloadStruct.same_iff (a b : PayloadStruct) :
    a.document.same b.document = true ↔ a = b := by
  cases a
  cases b
  simp [PayloadStruct.document, same_object_iff, sameFields, lookup]

theorem Program.same_iff (a b : Program) : a.document.same b.document = true ↔ a = b := by
  obtain ⟨states, payloads, actor⟩ := a
  obtain ⟨states', payloads', actor'⟩ := b
  have actors : (Document.option (·.document) actor).same (.option (·.document) actor') = true ↔
      actor = actor' := by
    cases actor with
    | none => cases actor' <;> simp [Document.option, Actor.document, same, toInt?]
    | some actor =>
      cases actor' with
      | none => simp [Document.option, Actor.document, same, toInt?]
      | some other => simp [Document.option, Actor.same_iff]
  simp [Program.document, same_object_iff, sameFields, lookup, same_list_iff StateStruct.same_iff,
    same_list_iff PayloadStruct.same_iff, actors]

theorem Program.document_inj {a b : Program} : a.document = b.document ↔ a = b := by
  constructor
  · intro same
    rw [← Program.same_iff, ← same, Program.same_iff]
  · intro same
    rw [same]

end Programs

/-- The last item of a name. -/
def lastNamed {α : Type} (name : α → String) (items : List α) (text : String) : Option α :=
  items.reverse.find? fun item => name item = text

def Program.lastEntryPoint (program : Program) (method : String) : Option EntryPoint :=
  lastNamed (·.method) ((program.actor.map (·.entryPoints)).getD []) method

def Program.lastState (program : Program) (name : String) : Option StateStruct :=
  lastNamed (·.name) program.states name

section Last

variable {α : Type} {name : α → String} {items : List α} {text : String}

theorem lastNamed_concat (item : α) : lastNamed name (items ++ [item]) text =
    if name item = text then some item else lastNamed name items text := by
  rw [lastNamed, List.reverse_append, List.reverse_singleton, List.singleton_append, List.find?_cons]
  split_ifs <;> simp_all [lastNamed]

theorem name_of_lastNamed {item : α} (found : lastNamed name items text = some item) :
    name item = text := by
  simpa using List.find?_some found

end Last

namespace Manifest

/-- The line for programs that no other line tells apart. -/
def glueLine : String := "~ generated glue differs"

/-- The names of entries are texts. -/
def Entries.Texts (entries : Entries) : Prop :=
  ∀ entry ∈ entries, ∃ text, entry.1 = .text text

/-- Entries hold the documents of what is found under each name. -/
structure Tabled {α : Type} (document : α → Document) (entries : Entries)
    (find : String → Option α) : Prop where
  texts : entries.Texts
  found : ∀ text, entries.find? (.text text) = (find text).map document

section Tables

variable {entries : Entries}

theorem Entries.Texts.assign (texts : entries.Texts) (text : String) (document : Document) :
    (entries.assign (.text text) document).Texts := by
  induction entries with
  | nil => simp [Entries.assign, Entries.Texts]
  | cons entry rest ih =>
    obtain ⟨here, there⟩ := List.forall_mem_cons.mp texts
    rw [Entries.assign]
    split_ifs
    · exact List.forall_mem_cons.mpr ⟨here, there⟩
    · exact List.forall_mem_cons.mpr ⟨here, ih there⟩

theorem Entries.Texts.find?_assign (texts : entries.Texts) (text name : String)
    (document : Document) : (entries.assign (.text text) document).find? (.text name) =
      if text = name then some document else entries.find? (.text name) := by
  induction entries with
  | nil => simp [Entries.assign, Entries.find?]
  | cons entry rest ih =>
    obtain ⟨⟨key, named⟩, there⟩ := List.forall_mem_cons.mp texts
    obtain ⟨_, old⟩ := entry
    cases named
    have later := ih there
    by_cases same : key = text
    · by_cases this : text = name <;> simp [Entries.assign, Entries.find?, same, this]
    · by_cases this : key = name
      · subst this
        simp [Entries.assign, Entries.find?, same, Ne.symm same]
      · simp [Entries.assign, Entries.find?, same, this, later]

theorem Entries.Texts.mem_names_iff (texts : entries.Texts) (text : String) :
    .text text ∈ entries.names ↔ (entries.find? (.text text)).isSome := by
  induction entries with
  | nil => simp [Entries.names, Entries.find?]
  | cons entry rest ih =>
    obtain ⟨⟨key, named⟩, there⟩ := List.forall_mem_cons.mp texts
    obtain ⟨_, document⟩ := entry
    cases named
    have later := ih there
    rw [Entries.names] at later ⊢
    by_cases same : key = text
    · simp [Entries.find?, same]
    · simp [Entries.find?, same, Ne.symm same, later]

/-- Items that give their names are entered under them, the last one of each name. -/
theorem exists_byName {α : Type} (key : String) (name : α → String) (document : α → Document)
    (items : List α) (named : ∀ item, (document item).fieldOf key = .ok (.text (name item))) :
    ∃ entries, byName key (items.map document) = .ok entries ∧
      Tabled document entries (lastNamed name items) := by
  induction items using List.reverseRecOn with
  | nil => exact ⟨[], rfl, by simp [Entries.Texts], by simp [Entries.find?, lastNamed]⟩
  | append_singleton items item ih =>
    obtain ⟨entries, made, texts, found⟩ := ih
    refine ⟨entries.assign (.text (name item)) (document item), ?_, texts.assign _ _, ?_⟩
    · rw [byName] at made ⊢
      rw [List.map_append, List.foldlM_append, made]
      simp only [List.map_cons, List.map_nil, List.foldlM_cons, List.foldlM_nil, named]
      rfl
    · intro text
      rw [texts.find?_assign, found, lastNamed_concat, apply_ite (Option.map document),
        Option.map_some]

theorem Entries.Texts.names (texts : entries.Texts) (keep : Document → Bool) :
    ∀ name ∈ entries.names.filter keep, ∃ text, name = .text text := by
  intro name member
  obtain ⟨entry, among, rfl⟩ := List.mem_map.mp (List.mem_filter.mp member).1
  exact texts entry among

/-- Texts can be ordered. -/
theorem exists_sortNames {names : List Document}
    (texts : ∀ name ∈ names, ∃ text, name = .text text) :
    ∃ sorted : List String, sortNames names = .ok (sorted.map .text) ∧
      ∀ text, text ∈ sorted ↔ .text text ∈ names := by
  have all : (textNames names).map .text = names := by
    induction names with
    | nil => rfl
    | cons name rest ih =>
      obtain ⟨⟨text, rfl⟩, there⟩ := List.forall_mem_cons.mp texts
      simpa [textNames] using ih there
  have ordered : (sortTexts (textNames names)).Perm (textNames names) := by
    rw [sortTexts]
    simpa [Function.comp_def] using
      (Document.sortFields_perm ((textNames names).map fun text => (text, .null))).map (·.1)
  have among : ∀ text, text ∈ textNames names ↔ .text text ∈ names := by
    intro text
    conv_rhs => rw [← all]
    simp
  cases names with
  | nil => exact ⟨[], rfl, by simp⟩
  | cons first rest =>
    cases rest with
    | nil => exact ⟨textNames [first], by rw [all, sortNames], among⟩
    | cons second rest =>
      have lengths := congrArg List.length all
      rw [List.length_map] at lengths
      refine ⟨_, by rw [sortNames, if_pos lengths], fun text => ?_⟩
      rw [ordered.mem_iff, among]

end Tables

section Lines

/-- Lines are found exactly if something does not agree, and none of them is the one for the
glue. -/
def Tells (outcome : Except Document.Misshapen (List String)) (agree : Prop) : Prop :=
  ∃ lines, outcome = .ok lines ∧ (lines = [] ↔ agree) ∧ glueLine ∉ lines

/-- A line that begins in another way is another one. -/
theorem append_ne_glueLine {start : String} (rest : String)
    (other : ¬start.toList <+: glueLine.toList) : start ++ rest ≠ glueLine := by
  intro same
  apply other
  rw [← same, String.toList_append]
  exact List.prefix_append _ _

theorem tells_map (start stop : String) (names : List String)
    (other : ¬start.toList <+: glueLine.toList) :
    Tells (.ok ((names.map Document.text).map fun name => start ++ name.shown ++ stop))
      (∀ name, name ∉ names) := by
  refine ⟨_, rfl, ?_, ?_⟩
  · rw [List.map_eq_nil_iff, List.map_eq_nil_iff, List.eq_nil_iff_forall_not_mem]
  · simp [String.append_assoc, append_ne_glueLine _ other]

theorem tells_append {first second : List String} {agree fits : Prop}
    (here : Tells (.ok first) agree) (there : Tells (.ok second) fits) :
    Tells (.ok (first ++ second)) (agree ∧ fits) := by
  obtain ⟨_, ⟨⟩, none, other⟩ := here
  obtain ⟨_, ⟨⟩, none', other'⟩ := there
  exact ⟨_, rfl, by rw [List.append_eq_nil_iff, none, none'], by simp [other, other']⟩

theorem tells_mapM {α : Type} {f : α → Except Document.Misshapen (List String)} {agree : α → Prop}
    {items : List α} (tells : ∀ item ∈ items, Tells (f item) (agree item)) :
    ∃ found, items.mapM f = .ok found ∧ Tells (.ok found.flatten) (∀ item ∈ items, agree item) := by
  induction items with
  | nil => exact ⟨[], rfl, [], rfl, by simp, by simp⟩
  | cons item rest ih =>
    obtain ⟨⟨lines, made, told⟩, there⟩ := List.forall_mem_cons.mp tells
    obtain ⟨found, ran, more⟩ := ih there
    refine ⟨lines :: found, by rw [List.mapM_cons, made, ran]; rfl, ?_⟩
    rw [List.flatten_cons, List.forall_mem_cons]
    exact tells_append ⟨lines, rfl, told⟩ more

theorem tells_fieldChange {name left right before after : Document} {key : String}
    (earlier : left.fieldOf key = .ok before) (later : right.fieldOf key = .ok after) :
    Tells (fieldChange name key left right) (before.same after = true) := by
  rw [fieldChange, earlier, later]
  change Tells (if before.same after = true then .ok [] else .ok [_]) _
  split_ifs with same
  · exact ⟨[], rfl, by simp [same], by simp⟩
  · refine ⟨_, rfl, by simp [same], ?_⟩
    simp only [String.append_assoc, List.mem_singleton]
    exact (append_ne_glueLine _ (by decide)).symm

/-- A field has the same content in two documents. -/
def FieldAgrees (before after : Document) (key : String) : Prop :=
  ∃ old new, before.fieldOf key = .ok old ∧ after.fieldOf key = .ok new ∧ old.same new = true

theorem fieldAgrees_iff {before after : EntryPoint} (same : before.method = after.method) :
    (∀ key ∈ watched, FieldAgrees before.document after.document key) ↔ before = after := by
  cases before
  cases after
  cases same
  simp [watched, FieldAgrees, EntryPoint.document, Document.fieldOf, Document.lookup,
    MethodNumber.value_inj, Mutability.name_inj, Document.same_list_iff Argument.same_iff]

theorem tells_field (before after : EntryPoint) (name : Document) : ∀ key ∈ watched,
    Tells (fieldChange name key before.document after.document)
      (FieldAgrees before.document after.document key) := by
  intro key member
  have field : ∃ old new, before.document.fieldOf key = .ok old ∧
      after.document.fieldOf key = .ok new := by
    simp only [watched, List.mem_cons, List.not_mem_nil, or_false] at member
    rcases member with rfl | rfl | rfl | rfl <;> exact ⟨_, _, rfl, rfl⟩
  obtain ⟨old, new, first, second⟩ := field
  simpa [FieldAgrees, first, second] using tells_fieldChange first second

end Lines

section Comparison

variable {left right : Entries}

section Names

variable {α : Type} {document : α → Document} {f g : String → Option α}

theorem Tabled.mem_namesWithout (here : Tabled document left f) (there : Tabled document right g)
    (text : String) :
    .text text ∈ namesWithout left right ↔ (f text).isSome ∧ g text = none := by
  simp [namesWithout, here.texts.mem_names_iff, here.found, there.found]

theorem Tabled.exists_without (here : Tabled document left f) (there : Tabled document right g) :
    ∃ names : List String, sortNames (namesWithout left right) = .ok (names.map .text) ∧
      ∀ name, name ∈ names ↔ (f name).isSome ∧ g name = none := by
  obtain ⟨names, sorted, among⟩ := exists_sortNames (here.texts.names _)
  exact ⟨names, sorted, fun name => (among name).trans (here.mem_namesWithout there name)⟩

theorem Tabled.exists_inBoth (here : Tabled document left f) (there : Tabled document right g) :
    ∃ names : List String, sortNames (namesInBoth left right) = .ok (names.map .text) ∧
      ∀ name, name ∈ names ↔ (f name).isSome ∧ (g name).isSome := by
  obtain ⟨names, sorted, among⟩ := exists_sortNames (here.texts.names _)
  refine ⟨names, sorted, fun name => (among name).trans ?_⟩
  simp [here.texts.mem_names_iff, here.found, there.found]

/-- What is found is equal if nothing came or went and what stayed is equal. -/
theorem agree_iff :
    ((∀ name, ¬((f name).isSome ∧ g name = none)) ∧ ∀ name, ¬((g name).isSome ∧ f name = none)) ∧
      (∀ name, (f name).isSome ∧ (g name).isSome → f name = g name) ↔
    ∀ name, f name = g name := by
  rw [← forall_and, ← forall_and]
  apply forall_congr'
  intro name
  cases f name <;> cases g name <;> simp

end Names

/-- Two entry points of one method agree if they are equal. -/
theorem tells_entryPointChanges {name : Document} {before after : EntryPoint}
    (earlier : left.find? name = some before.document)
    (later : right.find? name = some after.document) (same : before.method = after.method) :
    Tells (entryPointChanges left right name) (before = after) := by
  obtain ⟨found, ran, told⟩ := tells_mapM (tells_field before after name)
  rw [fieldAgrees_iff same] at told
  rw [entryPointChanges, earlier, later]
  simp only [ran]
  exact told

theorem tells_allEntryPointChanges {f g : String → Option EntryPoint}
    (here : Tabled EntryPoint.document left f) (there : Tabled EntryPoint.document right g)
    (methods : ∀ name entry, f name = some entry ∨ g name = some entry → entry.method = name) :
    Tells (allEntryPointChanges left right) (∀ name, f name = g name) := by
  obtain ⟨removed, gone, isGone⟩ := here.exists_without there
  obtain ⟨added, came, isNew⟩ := there.exists_without here
  obtain ⟨both, kept, isKept⟩ := here.exists_inBoth there
  have changed : ∀ name ∈ both, Tells (entryPointChanges left right (.text name))
      (f name = g name) := by
    intro name member
    obtain ⟨⟨before, earlier⟩, after, later⟩ := by
      simpa only [Option.isSome_iff_exists] using (isKept name).mp member
    have found := here.found name
    have found' := there.found name
    rw [earlier, Option.map_some] at found
    rw [later, Option.map_some] at found'
    rw [earlier, later, Option.some.injEq]
    exact tells_entryPointChanges found found'
      ((methods name before (.inl earlier)).trans (methods name after (.inr later)).symm)
  obtain ⟨found, ran, told⟩ := tells_mapM changed
  have listed : (both.map .text).mapM (entryPointChanges left right) = .ok found := by
    rw [List.mapM_map]
    exact ran
  have lines := tells_append
    (tells_append (tells_map "- entry point '" "' removed" removed (by decide))
      (tells_map "+ entry point '" "' added" added (by decide)))
    told
  simp only [isGone, isNew, isKept, agree_iff] at lines
  rw [allEntryPointChanges, gone, came, kept]
  change Tells ((both.map .text).mapM (entryPointChanges left right) >>= _) _
  rw [listed]
  exact lines

theorem sameState_iff {f g : String → Option StateStruct}
    (here : Tabled StateStruct.document left f) (there : Tabled StateStruct.document right g)
    (name : String) :
    sameState left right (.text name) = true ↔ (f name).isSome ∧ f name = g name := by
  rw [sameState, here.found, there.found]
  cases f name <;> cases g name <;> simp [StateStruct.same_iff]

theorem tells_stateChanges {f g : String → Option StateStruct}
    (here : Tabled StateStruct.document left f) (there : Tabled StateStruct.document right g) :
    Tells (stateChanges left right) (∀ name, f name = g name) := by
  have texts : ∀ name ∈ namesWithout left right ++ namesWithout right left,
      ∃ text, name = .text text := by
    intro name member
    rcases List.mem_append.mp member with among | among
    · exact here.texts.names _ name among
    · exact there.texts.names _ name among
  obtain ⟨single, alone, isAlone⟩ := exists_sortNames texts
  obtain ⟨both, kept, isKept⟩ := here.exists_inBoth there
  have lines := tells_append (tells_map "~ state '" "' only in one interface" single (by decide))
    (tells_map "~ state '" "' layout differs"
      (both.filter fun name => !sameState left right (.text name)) (by decide))
  have agree : ((∀ name, name ∉ single) ∧
      ∀ name, name ∉ both.filter fun name => !sameState left right (.text name)) ↔
      ∀ name, f name = g name := by
    rw [← forall_and]
    apply forall_congr'
    intro name
    simp only [isAlone, List.mem_append, here.mem_namesWithout there, there.mem_namesWithout here,
      List.mem_filter, isKept, Bool.not_eq_true', ← Bool.not_eq_true, sameState_iff here there]
    cases f name <;> cases g name <;> simp
  rw [agree] at lines
  rw [stateChanges, alone, kept]
  change Tells (.ok (_ ++ ((both.map Document.text).filter _).map _)) _
  rw [List.filter_map]
  exact lines

end Comparison

section Built

variable {a b : Manifest} {p q : Program} {module other : Glue.Module}

theorem Describes.programOf (describes : a.Describes p module) :
    a.programOf = .ok p.document := by
  have kept : Document.lookup "program" a.stable = Document.lookup "program" a := by
    rw [stable_eq, Document.lookup_erase (by decide), Document.lookup_erase (by decide)]
  rw [describes.stable] at kept
  rw [Manifest.programOf, Document.fieldOf, ← kept]
  rfl

theorem Describes.exists_entryPointsOf (describes : a.Describes p module) :
    ∃ entries, a.entryPointsOf = .ok entries ∧
      Tabled EntryPoint.document entries p.lastEntryPoint := by
  rw [entryPointsOf, describes.programOf]
  obtain ⟨states, payloads, actor⟩ := p
  cases actor with
  | none =>
    refine ⟨[], rfl, by simp [Entries.Texts], ?_⟩
    simp [Entries.find?, Program.lastEntryPoint, lastNamed]
  | some actor => exact exists_byName "method" (·.method) (·.document) actor.entryPoints fun _ => rfl

theorem Describes.exists_statesOf (describes : a.Describes p module) :
    ∃ entries, a.statesOf = .ok entries ∧ Tabled StateStruct.document entries p.lastState := by
  rw [statesOf, describes.programOf]
  exact exists_byName "name" StateStruct.name StateStruct.document p.states fun _ => rfl

/-- Without a collision the digests are equal exactly if the programs are. -/
theorem Describes.digest_eq_iff {symbol : String} (here : a.Describes p (Glue.lower p symbol))
    (there : b.Describes q (Glue.lower q symbol))
    (apart : ¬Sha256.Collide (Bytes.ofAscii a.hashedText) (Bytes.ofAscii b.hashedText)) :
    Bytes.hex (Sha256.hash (Bytes.ofAscii a.hashedText)) =
      Bytes.hex (Sha256.hash (Bytes.ofAscii b.hashedText)) ↔ p = q := by
  constructor
  · intro same
    have bytes := not_not.mp fun differs => apart ⟨differs, Bytes.hex_inj same⟩
    have alike := (hashed_eq_iff here.proper there.proper).mp bytes
    rw [here.stable, there.stable] at alike
    obtain ⟨other, found, programs⟩ := Document.alikeFields_iff.mp alike.2
      ("program", p.document) (by simp)
    cases found
    exact (p.same_iff q).mp (Document.same_of_alike _ _ p.proper_document programs)
  · rintro rfl
    rw [hashedText, hashedText, canonical, canonical, here.stable, there.stable]

theorem Describes.exists_changes (here : a.Describes p module) (there : b.Describes q other) :
    ∃ lines, a.changes b = .ok lines ∧
      (lines = [] ↔ Bytes.hex (Sha256.hash (Bytes.ofAscii a.hashedText)) =
        Bytes.hex (Sha256.hash (Bytes.ofAscii b.hashedText))) ∧
      (glueLine ∈ lines ↔ Bytes.hex (Sha256.hash (Bytes.ofAscii a.hashedText)) ≠
          Bytes.hex (Sha256.hash (Bytes.ofAscii b.hashedText)) ∧
        (∀ method, p.lastEntryPoint method = q.lastEntryPoint method) ∧
        ∀ name, p.lastState name = q.lastState name) := by
  obtain ⟨left, entries, listed⟩ := here.exists_entryPointsOf
  obtain ⟨right, entries', listed'⟩ := there.exists_entryPointsOf
  obtain ⟨former, states, held⟩ := here.exists_statesOf
  obtain ⟨latter, states', held'⟩ := there.exists_statesOf
  have methods : ∀ name entry, p.lastEntryPoint name = some entry ∨
      q.lastEntryPoint name = some entry → entry.method = name := by
    rintro name entry (found | found) <;> exact name_of_lastNamed found
  obtain ⟨lines, ran, none, absent⟩ := tells_allEntryPointChanges listed listed' methods
  obtain ⟨more, ran', none', absent'⟩ := tells_stateChanges held held'
  rw [changes, digest, digest, if_pos (isWritable_canonical a here.proper),
    if_pos (isWritable_canonical b there.proper), entries, entries', states, states']
  generalize Bytes.hex (Sha256.hash (Bytes.ofAscii a.hashedText)) = before
  generalize Bytes.hex (Sha256.hash (Bytes.ofAscii b.hashedText)) = after
  change ∃ lines, (if before = after then _ else _) = _ ∧ _
  by_cases same : before = after
  · rw [if_pos same]
    exact ⟨[], rfl, by simp [same], by simp [same]⟩
  · rw [if_neg same]
    change ∃ lines, (allEntryPointChanges left right >>= _) = _ ∧ _
    rw [ran]
    change ∃ lines, (stateChanges former latter >>= _) = _ ∧ _
    rw [ran']
    by_cases nothing : (lines ++ more).isEmpty
    · refine ⟨[glueLine], ?_, by simp [same], ?_⟩
      · change Except.ok (if (lines ++ more).isEmpty then _ else _) = _
        rw [if_pos nothing]
        rfl
      · simp_all
    · refine ⟨lines ++ more, ?_, by simp_all, ?_⟩
      · change Except.ok (if (lines ++ more).isEmpty then _ else _) = _
        rw [if_neg nothing]
      · simp_all

end Built

end Manifest

namespace Glue

/-- The operation and the metadata of a step. -/
def Step.content (step : Step) : String × List (String × Document) :=
  (step.op.name, step.metadata)

/-- The operation and the metadata that the document of an instruction has. -/
def contentOf (document : Document) : Option (String × List (String × Document)) :=
  match document.fieldOf "op", document.fieldOf "metadata" with
  | .ok (.text op), .ok (.object metadata) => some (op, metadata)
  | _, _ => none

theorem contents_of_document {name name' : String} {steps others : List Step}
    (same : (Block.ofSteps name steps).document = (Block.ofSteps name' others).document) :
    steps.map (·.content) = others.map (·.content) := by
  have read : ∀ (name : String) (steps : List Step),
      ((Block.ofSteps name steps).instructions.map (·.document)).filterMap contentOf =
        steps.map (·.content) := by
    intro name steps
    rw [Block.ofSteps, List.map_map, List.filterMap_map]
    conv_rhs => rw [← List.zipIdx_map_fst 0 steps, List.map_map]
    exact congrFun List.filterMap_eq_map _
  simp only [Block.document, Document.object.injEq, List.cons.injEq, Prod.mk.injEq,
    Document.list.injEq, true_and, and_true] at same
  rw [← read name, ← read name', same.2]

theorem lookup_call (entry : EntryPoint) (stateType : String) :
    ((entrySteps entry stateType).map (·.content)).lookup "CALL" = some
      [("method", .text entry.method), ("receiver", .text entry.mutability.name),
        ("returns", .bool entry.returns), ("state", .text stateType)] := by
  obtain ⟨method, binding, mutability, returns, arguments⟩ := entry
  cases mutability <;> cases returns <;> cases arguments <;> rfl

theorem lookup_decodeArgs (entry : EntryPoint) (stateType : String) :
    (((entrySteps entry stateType).map (·.content)).lookup "DECODE_ARGS").getD
      [("arguments", .list [])] = [("arguments", .list (entry.arguments.map (·.document)))] := by
  obtain ⟨method, binding, mutability, returns, arguments⟩ := entry
  cases mutability <;> cases returns <;> cases arguments <;> rfl

/-- The document of a case tells the entry point. -/
theorem case_document_inj {entry other : EntryPoint} {stateType : String}
    (same : (Case.mk entry (lowerEntry entry stateType)).document =
      (Case.mk other (lowerEntry other stateType)).document) : entry = other := by
  simp only [Case.document, Document.object.injEq, List.cons.injEq, Prod.mk.injEq, true_and,
    and_true] at same
  obtain ⟨bindings, -, bodies⟩ := same
  have steps := contents_of_document bodies
  have calls := lookup_call entry stateType
  have decoded := lookup_decodeArgs entry stateType
  rw [steps, lookup_call other] at calls
  rw [steps, lookup_decodeArgs other] at decoded
  obtain ⟨method, binding, mutability, returns, arguments⟩ := entry
  obtain ⟨method', binding', mutability', returns', arguments'⟩ := other
  simp only [Document.nat, Document.int.injEq, Nat.cast_inj, MethodNumber.value_inj] at bindings
  simp only [Option.some.injEq, List.cons.injEq, Prod.mk.injEq, Document.text.injEq,
    Document.bool.injEq, Mutability.name_inj, true_and, and_true] at calls
  simp only [List.cons.injEq, Prod.mk.injEq, Document.list.injEq, true_and, and_true] at decoded
  obtain ⟨rfl, rfl, rfl⟩ := calls
  have listed : arguments = arguments' := by
    rw [← Document.same_list_iff Argument.same_iff, decoded, Document.same_list_iff Argument.same_iff]
  rw [bindings, listed]

/-- The glue tells the actor and the names of the states. -/
theorem lower_document_inj {p q : Program} {symbol : String}
    (same : (lower p symbol).document = (lower q symbol).document) :
    p.actor = q.actor ∧ p.states.map (·.name) = q.states.map (·.name) := by
  obtain ⟨states, payloads, actor⟩ := p
  obtain ⟨states', payloads', actor'⟩ := q
  simp only [lower, Module.document, Document.object.injEq, List.cons.injEq, Prod.mk.injEq,
    Document.list.injEq, true_and, and_true, List.map_map] at same
  obtain ⟨interfaces, tables⟩ := same
  constructor
  · cases actor with
    | none => cases actor' <;> simp_all [Document.option, DispatchTable.document]
    | some actor =>
      cases actor' with
      | none => simp [Document.option, DispatchTable.document] at tables
      | some other =>
        simp only [Option.map_some, Document.option, lowerActor, DispatchTable.document,
          Document.object.injEq, List.cons.injEq, Prod.mk.injEq, Document.text.injEq,
          Document.list.injEq, List.map_map, true_and, and_true] at tables
        obtain ⟨names, cases⟩ := tables
        obtain ⟨name, dispatch, entries⟩ := actor
        obtain ⟨_, dispatch', entries'⟩ := other
        cases names
        have listed : entries = entries' :=
          List.map_injective_iff.mpr (fun _ _ => case_document_inj) cases
        rw [listed]
  · have names := congrArg (List.map (Document.fieldOf "state")) interfaces
    rw [List.map_map, List.map_map] at names
    have told : Function.Injective fun name =>
        (.ok (.text name) : Except Document.Misshapen Document) := by
      intro name other same
      cases same
      rfl
    apply List.map_injective_iff.mpr told
    rw [List.map_map, List.map_map]
    exact names

end Glue

section Distinct

variable {α : Type} {name : α → String}

theorem lastNamed_of_mem {items : List α} (distinct : (items.map name).Nodup) {item : α}
    (member : item ∈ items) : lastNamed name items (name item) = some item := by
  cases found : lastNamed name items (name item) with
  | none =>
    have differs := List.find?_eq_none.mp found item (List.mem_reverse.mpr member)
    simp at differs
  | some other =>
    have among := List.mem_reverse.mp (List.mem_of_find?_eq_some found)
    rw [List.inj_on_of_nodup_map distinct among member (name_of_lastNamed found)]

/-- Items with names of their own are told by the last one of each name. -/
theorem eq_of_lastNamed {items others : List α}
    (names : items.map name = others.map name) (distinct : (items.map name).Nodup)
    (same : ∀ text, lastNamed name items text = lastNamed name others text) : items = others := by
  have told : ∀ {items : List α}, (items.map name).Nodup →
      items.map some = (items.map name).map (lastNamed name items) := by
    intro items distinct
    rw [List.map_map, List.map_inj_left]
    intro item member
    exact (lastNamed_of_mem distinct member).symm
  apply List.map_injective_iff.mpr (Option.some_injective α)
  rw [told distinct, told (names ▸ distinct), names, funext same]

end Distinct

namespace Manifest

/-- Two programs have no changes exactly if they have the same document, unless the hash collides.
The glue is named exactly if they differ and have the same last entry point of every method and the
same last state of every name. Its documents then differ, or the payload structures do, or a state
is declared twice. -/
theorem changes_attributed (p q : Program) (symbol earlier later : String) :
    ∃ a b, build p (Glue.lower p symbol) earlier = .ok a ∧
      build q (Glue.lower q symbol) later = .ok b ∧
      (¬Sha256.Collide (Bytes.ofAscii a.hashedText) (Bytes.ofAscii b.hashedText) →
        ∃ lines, a.changes b = .ok lines ∧ (lines = [] ↔ p.document = q.document) ∧
          ("~ generated glue differs" ∈ lines ↔ p.document ≠ q.document ∧
            (∀ method, p.lastEntryPoint method = q.lastEntryPoint method) ∧
            ∀ name, p.lastState name = q.lastState name) ∧
          ("~ generated glue differs" ∈ lines →
            (Glue.lower p symbol).document ≠ (Glue.lower q symbol).document ∨
              p.payloads ≠ q.payloads ∨ ¬(p.states.map (·.name)).Nodup)) := by
  obtain ⟨a, made, here⟩ := exists_build p earlier (Glue.proper_lower p symbol)
  obtain ⟨b, made', there⟩ := exists_build q later (Glue.proper_lower q symbol)
  refine ⟨a, b, made, made', ?_⟩
  intro apart
  have digests := here.digest_eq_iff there apart
  obtain ⟨lines, found, none, named⟩ := here.exists_changes there
  rw [digests, ← Program.document_inj] at none
  rw [Ne, digests, ← Program.document_inj] at named
  refine ⟨lines, found, none, named, ?_⟩
  intro member
  obtain ⟨differs, -, states⟩ := named.mp member
  by_contra! told
  obtain ⟨glue, payloads, distinct⟩ := told
  obtain ⟨actors, names⟩ := Glue.lower_document_inj glue
  apply differs
  rw [Program.document_inj]
  obtain ⟨_, _, _⟩ := p
  obtain ⟨_, _, _⟩ := q
  cases eq_of_lastNamed names distinct states
  cases payloads
  cases actors
  rfl

theorem changes_attributed_renamed_payload :
    let p : Program := ⟨[], [⟨"P", .dagCbor⟩], none⟩
    let q : Program := ⟨[], [⟨"Q", .dagCbor⟩], none⟩
    ∃ a b, build p (Glue.lower p invokeSymbol) "" = .ok a ∧
      build q (Glue.lower q invokeSymbol) "" = .ok b ∧
      ¬Sha256.Collide (Bytes.ofAscii a.hashedText) (Bytes.ofAscii b.hashedText) ∧
      (∃ lines, a.changes b = .ok lines ∧ "~ generated glue differs" ∈ lines) ∧
      (Glue.lower p invokeSymbol).document = (Glue.lower q invokeSymbol).document := by
  intro p q
  obtain ⟨a, b, made, made', attributed⟩ := changes_attributed p q invokeSymbol "" ""
  have apart : ¬Sha256.Collide (Bytes.ofAscii a.hashedText) (Bytes.ofAscii b.hashedText) := by
    cases made.symm.trans (build_eq_ok p "" (Glue.proper_lower p invokeSymbol))
    cases made'.symm.trans (build_eq_ok q "" (Glue.proper_lower q invokeSymbol))
    rintro ⟨-, same⟩
    revert same
    decide +kernel
  obtain ⟨lines, found, -, named, -⟩ := attributed apart
  refine ⟨a, b, made, made', apart, ⟨lines, found, named.mpr ⟨?_, fun _ => rfl, fun _ => rfl⟩⟩, rfl⟩
  rw [Ne, Program.document_inj]
  decide

/-- A payload structure makes the digests differ, and the glue is named for it, which is the
same. -/
theorem payload_blamed_on_glue :
    let p : Program := {}
    let q : Program := ⟨[], [⟨"P", .dagCbor⟩], none⟩
    (expandFile {} "#[fvm_payload]\npub struct P;\n".toList).toOption.map (·.program) = some q ∧
      (∃ a b, build p (Glue.lower p invokeSymbol) "" = .ok a ∧
        build q (Glue.lower q invokeSymbol) "" = .ok b ∧
        a.changes b = .ok ["~ generated glue differs"]) ∧
      (Glue.lower p invokeSymbol).document = (Glue.lower q invokeSymbol).document := by
  intro p q
  refine ⟨by decide +kernel, ⟨_, _, build_eq_ok p "" (Glue.proper_lower p invokeSymbol),
    build_eq_ok q "" (Glue.proper_lower q invokeSymbol), ?_⟩, rfl⟩
  decide +kernel

end Manifest

end ActorGlue
