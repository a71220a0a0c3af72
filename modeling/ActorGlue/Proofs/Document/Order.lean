import Mathlib
import ActorGlue.Document.Canonical

/-!
# The order of fields

Two documents that differ at most in the order of the fields of their objects, at any depth, are
alike. Documents whose objects have no name twice are alike exactly if they have the same canonical
form.
-/

namespace ActorGlue.Document

variable (fields : List (String × Document))

section Definitions

mutual

/-- No object has a name twice, and no number has a fraction or is too long to be written. -/
def Proper : Document → Prop
  | .float _ => False
  | .int value => Text.isWritable value
  | .list items => ProperAll items
  | .object fields => (fields.map (·.1)).Nodup ∧ ProperFields fields
  | _ => True

/-- Several documents are proper. -/
def ProperAll : List Document → Prop
  | [] => True
  | item :: rest => item.Proper ∧ ProperAll rest

/-- The values of fields are proper. -/
def ProperFields : List (String × Document) → Prop
  | [] => True
  | (_, value) :: rest => value.Proper ∧ ProperFields rest

end

mutual

/-- Two documents are equal, but for the order of the fields of objects at any depth. -/
def Alike : Document → Document → Prop
  | .list a, .list b => AlikeAll a b
  | .object a, .object b => a.length = b.length ∧ AlikeFields a b
  | a, b => a = b

/-- Two lists have alike items. -/
def AlikeAll : List Document → List Document → Prop
  | [], [] => True
  | a :: as, b :: bs => a.Alike b ∧ AlikeAll as bs
  | _, _ => False

/-- Every field on the left has an alike value on the right. -/
def AlikeFields : List (String × Document) → List (String × Document) → Prop
  | [], _ => True
  | (key, value) :: rest, others =>
    (∃ other, lookup key others = some other ∧ value.Alike other) ∧ AlikeFields rest others

end

end Definitions

section Fields

variable {fields others : List (String × Document)} {key : String} {value : Document}

theorem properFields_iff : ProperFields fields ↔ ∀ field ∈ fields, field.2.Proper := by
  induction fields with
  | nil => simp [ProperFields]
  | cons field rest ih => simp [ProperFields, ih]

theorem properAll_iff {items : List Document} : ProperAll items ↔ ∀ item ∈ items, item.Proper := by
  induction items with
  | nil => simp [ProperAll]
  | cons item rest ih => simp [ProperAll, ih]

@[simp] theorem properAll_map {α : Type} {f : α → Document} {items : List α} :
    ProperAll (items.map f) ↔ ∀ item ∈ items, (f item).Proper := by
  simp [properAll_iff]

@[simp] theorem proper_option {α : Type} {f : α → Document} {value : Option α} :
    (option f value).Proper ↔ ∀ item, value = some item → (f item).Proper := by
  cases value with
  | none => simp [option, Proper]
  | some item => simp [option]

theorem alikeFields_iff : AlikeFields fields others ↔
    ∀ field ∈ fields, ∃ other, lookup field.1 others = some other ∧ field.2.Alike other := by
  induction fields with
  | nil => simp [AlikeFields]
  | cons field rest ih => simp [AlikeFields, ih]

theorem mem_of_lookup (found : lookup key fields = some value) : (key, value) ∈ fields := by
  induction fields with
  | nil => cases found
  | cons field rest ih =>
    rw [lookup] at found
    split at found
    · cases found
      simp [← ‹field.1 = key›]
    · exact List.mem_cons_of_mem _ (ih found)

theorem lookup_assign : lookup key (assign key value fields) = some value := by
  induction fields with
  | nil => simp [assign, lookup]
  | cons field rest ih =>
    by_cases here : field.1 = key
    · simp [assign, lookup, here]
    · simp [assign, lookup, here, ih]

theorem mem_assign {field : String × Document} (member : field ∈ assign key value fields) :
    field = (key, value) ∨ field ∈ fields := by
  induction fields with
  | nil => exact .inl (List.mem_singleton.mp member)
  | cons first rest ih =>
    rw [assign] at member
    split_ifs at member with here
    · rw [here] at member
      exact (List.mem_cons.mp member).imp_right (List.mem_cons_of_mem _)
    · rcases List.mem_cons.mp member with rfl | member
      · exact .inr List.mem_cons_self
      · exact (ih member).imp_right (List.mem_cons_of_mem _)

theorem erase_assign : erase key (assign key value fields) = erase key fields := by
  induction fields with
  | nil => simp [assign, erase]
  | cons field rest ih =>
    by_cases here : field.1 = key
    · simp [assign, erase, here]
    · simp only [assign, if_neg here, erase, List.filter_cons] at ih ⊢
      rw [ih]

/-- The value of a field is found by its name if no other field has that name. -/
theorem lookup_of_mem (distinct : (fields.map (·.1)).Nodup) (member : (key, value) ∈ fields) :
    lookup key fields = some value := by
  induction fields with
  | nil => cases member
  | cons field rest ih =>
    obtain ⟨fresh, distinct⟩ := List.nodup_cons.mp distinct
    rw [lookup]
    rcases List.mem_cons.mp member with rfl | member
    · rw [if_pos rfl]
    · have differs : field.1 ≠ key := by
        rintro rfl
        exact fresh (List.mem_map.mpr ⟨_, member, rfl⟩)
      rw [if_neg differs]
      exact ih distinct member

theorem canonicalFields_eq :
    canonicalFields fields = fields.map fun field => (field.1, field.2.canonical) := by
  induction fields with
  | nil => rfl
  | cons field rest ih => rw [canonicalFields, ih, List.map_cons]

theorem keys_canonicalFields : (canonicalFields fields).map (·.1) = fields.map (·.1) := by
  rw [canonicalFields_eq, List.map_map]
  rfl

end Fields

section Sorting

/-- Fields stand in the order of their names. -/
def Sorted (fields : List (String × Document)) : Prop :=
  fields.Pairwise fun first second => first.1 ≤ second.1

theorem insertField_perm (field : String × Document) (fields : List (String × Document)) :
    (insertField field fields).Perm (field :: fields) := by
  induction fields with
  | nil => exact .refl _
  | cons other rest ih =>
    rw [insertField]
    split
    · exact .refl _
    · exact (ih.cons other).trans (.swap field other rest)

theorem sortFields_perm : (sortFields fields).Perm fields := by
  induction fields with
  | nil => exact .refl _
  | cons field rest ih => exact (insertField_perm field _).trans (ih.cons field)

theorem Sorted.insertField {fields : List (String × Document)} (sorted : Sorted fields)
    (field : String × Document) : Sorted (insertField field fields) := by
  induction fields with
  | nil => exact List.pairwise_singleton _ _
  | cons other rest ih =>
    obtain ⟨below, sorted⟩ := List.pairwise_cons.mp sorted
    rw [Document.insertField]
    split
    · rename_i least
      refine List.pairwise_cons.mpr ⟨?_, List.pairwise_cons.mpr ⟨below, sorted⟩⟩
      intro later member
      rcases List.mem_cons.mp member with rfl | member
      · exact least
      · exact least.trans (below later member)
    · rename_i greater
      refine List.pairwise_cons.mpr ⟨?_, ih sorted⟩
      intro later member
      rcases List.mem_cons.mp ((insertField_perm field rest).mem_iff.mp member) with rfl | member
      · exact (lt_of_not_ge greater).le
      · exact below later member

theorem sorted_sortFields : Sorted (sortFields fields) := by
  induction fields with
  | nil => exact List.Pairwise.nil
  | cons field rest ih => exact ih.insertField field

/-- Sorting leaves sorted fields alone. -/
theorem Sorted.sortFields_eq {fields : List (String × Document)} (sorted : Sorted fields) :
    sortFields fields = fields := by
  induction fields with
  | nil => rfl
  | cons field rest ih =>
    obtain ⟨below, sorted⟩ := List.pairwise_cons.mp sorted
    rw [sortFields, ih sorted]
    cases rest with
    | nil => rfl
    | cons other rest => rw [Document.insertField, if_pos (below other List.mem_cons_self)]

/-- There is only one order for fields with different names. -/
theorem sortFields_eq_iff {first second : List (String × Document)}
    (distinct : (first.map (·.1)).Nodup) :
    sortFields first = sortFields second ↔ first.Perm second := by
  constructor
  · intro same
    calc first.Perm (sortFields first) := (sortFields_perm first).symm
      _ = sortFields second := same
      List.Perm _ second := sortFields_perm second
  · intro perm
    refine List.Perm.eq_of_pairwise ?_ (sorted_sortFields first) (sorted_sortFields second) ?_
    · intro a b here there le ge
      have inFirst : a ∈ first := (sortFields_perm first).mem_iff.mp here
      have inFirst' : b ∈ first := perm.mem_iff.mpr ((sortFields_perm second).mem_iff.mp there)
      exact List.inj_on_of_nodup_map distinct inFirst inFirst' (le_antisymm le ge)
    · exact (sortFields_perm first).trans (perm.trans (sortFields_perm second).symm)

theorem canonicalFields_insertField (field : String × Document)
    (fields : List (String × Document)) :
    canonicalFields (insertField field fields) =
      insertField (field.1, field.2.canonical) (canonicalFields fields) := by
  induction fields with
  | nil => rfl
  | cons other rest ih =>
    rw [insertField, canonicalFields, insertField]
    split
    · rfl
    · rw [canonicalFields, ih]

theorem canonicalFields_sortFields :
    canonicalFields (sortFields fields) = sortFields (canonicalFields fields) := by
  induction fields with
  | nil => rfl
  | cons field rest ih =>
    rw [sortFields, canonicalFields_insertField, ih, canonicalFields, sortFields]

end Sorting

section Canonical

mutual

/-- The canonical form is its own canonical form. -/
theorem canonical_canonical : (document : Document) → document.canonical.canonical = document.canonical
  | .null | .bool _ | .int _ | .float _ | .text _ => by simp only [canonical]
  | .list items => by simp only [canonical, canonicalAll_canonicalAll items]
  | .object fields => by
    simp only [canonical, canonicalFields_sortFields, canonicalFields_canonicalFields fields,
      (sorted_sortFields _).sortFields_eq]

theorem canonicalAll_canonicalAll :
    (items : List Document) → canonicalAll (canonicalAll items) = canonicalAll items
  | [] => rfl
  | item :: rest => by
    simp only [canonicalAll, canonical_canonical item, canonicalAll_canonicalAll rest]

theorem canonicalFields_canonicalFields :
    (fields : List (String × Document)) →
      canonicalFields (canonicalFields fields) = canonicalFields fields
  | [] => rfl
  | (_, value) :: rest => by
    simp only [canonicalFields, canonical_canonical value, canonicalFields_canonicalFields rest]

end

/-- Objects with different names have the same canonical fields in some order exactly if their
fields are alike. -/
theorem canonicalFields_perm_iff {a b : List (String × Document)}
    (distinctA : (a.map (·.1)).Nodup) (distinctB : (b.map (·.1)).Nodup)
    (values : ∀ field ∈ a, ∀ other ∈ b,
      field.2.canonical = other.2.canonical ↔ field.2.Alike other.2) :
    (canonicalFields a).Perm (canonicalFields b) ↔ a.length = b.length ∧ AlikeFields a b := by
  rw [alikeFields_iff]
  constructor
  · intro perm
    refine ⟨by simpa [canonicalFields_eq] using perm.length_eq, ?_⟩
    rintro ⟨key, value⟩ member
    have image : (key, value.canonical) ∈ canonicalFields b := by
      rw [← perm.mem_iff, canonicalFields_eq]
      exact List.mem_map_of_mem member
    rw [canonicalFields_eq] at image
    obtain ⟨⟨key', other⟩, among, same⟩ := List.mem_map.mp image
    simp only [Prod.mk.injEq] at same
    obtain ⟨rfl, same⟩ := same
    exact ⟨other, lookup_of_mem distinctB among, (values _ member _ among).mp same.symm⟩
  · rintro ⟨lengths, alike⟩
    have distinct : (canonicalFields a).Nodup := by
      refine List.Nodup.of_map (·.1) ?_
      rw [keys_canonicalFields]
      exact distinctA
    have subset : canonicalFields a ⊆ canonicalFields b := by
      intro field member
      rw [canonicalFields_eq] at member ⊢
      obtain ⟨⟨key, value⟩, among, rfl⟩ := List.mem_map.mp member
      obtain ⟨other, found, alike⟩ := alike _ among
      have member' := mem_of_lookup found
      exact List.mem_map.mpr
        ⟨(key, other), member', by rw [(values _ among _ member').mpr alike]⟩
    refine (distinct.subperm subset).perm_of_length_le ?_
    simp [canonicalFields_eq, lengths]

mutual

/-- Proper documents have the same canonical form exactly if they are alike. -/
theorem canonical_eq_iff : (a b : Document) → a.Proper → b.Proper →
    (a.canonical = b.canonical ↔ a.Alike b)
  | .list items, .list others, proper, proper' => by
    simp only [canonical, Alike, list.injEq]
    exact canonicalAll_eq_iff items others proper proper'
  | .object fields, .object others, proper, proper' => by
    have distinct : ((canonicalFields fields).map (·.1)).Nodup := by
      rw [keys_canonicalFields]
      exact proper.1
    simp only [canonical, Alike, object.injEq]
    rw [sortFields_eq_iff distinct]
    refine canonicalFields_perm_iff proper.1 proper'.1 ?_
    intro field member other member'
    exact canonicalField_eq_iff fields proper.2 field member other.2
      (properFields_iff.mp proper'.2 other member')
  | .null, b, _, _ | .bool _, b, _, _ | .int _, b, _, _ | .text _, b, _, _ => by
    cases b <;> simp [canonical, Alike]
  | .list _, .null, _, _ | .list _, .bool _, _, _ | .list _, .int _, _, _
  | .list _, .float _, _, _ | .list _, .text _, _, _ | .list _, .object _, _, _
  | .object _, .null, _, _ | .object _, .bool _, _, _ | .object _, .int _, _, _
  | .object _, .float _, _, _ | .object _, .text _, _, _ | .object _, .list _, _, _ => by
    simp [canonical, Alike]

theorem canonicalAll_eq_iff : (as bs : List Document) → ProperAll as → ProperAll bs →
    (canonicalAll as = canonicalAll bs ↔ AlikeAll as bs)
  | [], [], _, _ | [], _ :: _, _, _ | _ :: _, [], _, _ => by simp [canonicalAll, AlikeAll]
  | a :: as, b :: bs, proper, proper' => by
    simp only [canonicalAll, AlikeAll, List.cons.injEq]
    rw [canonical_eq_iff a b proper.1 proper'.1, canonicalAll_eq_iff as bs proper.2 proper'.2]

theorem canonicalField_eq_iff : (fields : List (String × Document)) → ProperFields fields →
    ∀ field ∈ fields, ∀ other : Document, other.Proper →
      (field.2.canonical = other.canonical ↔ field.2.Alike other)
  | (key, value) :: rest, proper, field, member, other, proper' => by
    rcases List.mem_cons.mp member with rfl | member
    · exact canonical_eq_iff value other proper.1 proper'
    · exact canonicalField_eq_iff rest proper.2 field member other proper'

end

mutual

theorem Proper.canonical : (document : Document) → document.Proper → document.canonical.Proper
  | .null, _ | .bool _, _ | .text _, _ => trivial
  | .float _, proper | .int _, proper => proper
  | .list items, proper => Proper.canonicalAll items proper
  | .object fields, proper => by
    have perm := sortFields_perm (Document.canonicalFields fields)
    constructor
    · rw [(perm.map (·.1)).nodup_iff, keys_canonicalFields]
      exact proper.1
    · rw [properFields_iff]
      intro field member
      exact properFields_iff.mp (Proper.canonicalFields fields proper.2) field
        (perm.mem_iff.mp member)

theorem Proper.canonicalAll : (items : List Document) → ProperAll items →
    ProperAll (Document.canonicalAll items)
  | [], _ => trivial
  | item :: rest, proper => ⟨Proper.canonical item proper.1, Proper.canonicalAll rest proper.2⟩

theorem Proper.canonicalFields : (fields : List (String × Document)) → ProperFields fields →
    ProperFields (Document.canonicalFields fields)
  | [], _ => trivial
  | (_, value) :: rest, proper =>
    ⟨Proper.canonical value proper.1, Proper.canonicalFields rest proper.2⟩

end

mutual

theorem Proper.isWritable : (document : Document) → document.Proper → document.isWritable
  | .null, _ | .bool _, _ | .text _, _ => rfl
  | .int _, proper => proper
  | .float _, proper => proper.elim
  | .list items, proper => Proper.areWritable items proper
  | .object fields, proper => Proper.fieldsWritable fields proper.2

theorem Proper.areWritable : (items : List Document) → ProperAll items →
    Document.areWritable items
  | [], _ => rfl
  | item :: rest, proper => by
    rw [Document.areWritable, Proper.isWritable item proper.1, Proper.areWritable rest proper.2]
    rfl

theorem Proper.fieldsWritable : (fields : List (String × Document)) → ProperFields fields →
    Document.fieldsWritable fields
  | [], _ => rfl
  | (_, value) :: rest, proper => by
    rw [Document.fieldsWritable, Proper.isWritable value proper.1,
      Proper.fieldsWritable rest proper.2]
    rfl

end

end Canonical

section Objects

variable {a b : List (String × Document)}

/-- Proper objects are alike exactly if their canonical fields are the same in some order. -/
theorem alike_object_iff (proper : (object a).Proper) (proper' : (object b).Proper) :
    (object a).Alike (.object b) ↔ (canonicalFields a).Perm (canonicalFields b) := by
  have distinct : ((canonicalFields a).map (·.1)).Nodup := by
    rw [keys_canonicalFields]
    exact proper.1
  rw [← canonical_eq_iff _ _ proper proper', canonical, canonical, object.injEq,
    sortFields_eq_iff distinct]

theorem Proper.perm (proper : (object a).Proper) (perm : a.Perm b) : (object b).Proper := by
  constructor
  · exact (perm.map _).nodup_iff.mp proper.1
  · rw [properFields_iff]
    intro field member
    exact properFields_iff.mp proper.2 field (perm.mem_iff.mpr member)

theorem Proper.assign (proper : (object a).Proper) (key value : String) :
    (object (assign key (.text value) a)).Proper := by
  induction a with
  | nil => exact ⟨List.nodup_singleton _, trivial, trivial⟩
  | cons field rest ih =>
    obtain ⟨fresh, distinct⟩ := List.nodup_cons.mp proper.1
    rw [Document.assign]
    split_ifs with here
    · exact ⟨proper.1, trivial, proper.2.2⟩
    · obtain ⟨distinct', proper'⟩ := ih ⟨distinct, proper.2.2⟩
      refine ⟨List.nodup_cons.mpr ⟨?_, distinct'⟩, proper.2.1, proper'⟩
      intro member
      obtain ⟨other, among, same⟩ := List.mem_map.mp member
      rcases mem_assign among with rfl | among
      · exact here same.symm
      · exact fresh (List.mem_map.mpr ⟨other, among, same⟩)

/-- The order of fields does not count. -/
theorem alike_of_perm (proper : (object a).Proper) (perm : a.Perm b) :
    (object a).Alike (.object b) := by
  rw [alike_object_iff proper (proper.perm perm), canonicalFields_eq, canonicalFields_eq]
  exact perm.map _

theorem Proper.filter (proper : (object a).Proper) (keep : String × Document → Bool) :
    (object (a.filter keep)).Proper := by
  constructor
  · exact proper.1.sublist (List.filter_sublist.map _)
  · rw [properFields_iff]
    intro field member
    exact properFields_iff.mp proper.2 field (List.mem_of_mem_filter member)

theorem canonicalFields_filter (keep : String → Bool) (fields : List (String × Document)) :
    canonicalFields (fields.filter fun field => keep field.1) =
      (canonicalFields fields).filter fun field => keep field.1 := by
  rw [canonicalFields_eq, canonicalFields_eq, List.filter_map]
  rfl

/-- Objects that are alike stay so without the fields of some names. -/
theorem Alike.filter (alike : (object a).Alike (.object b)) (proper : (object a).Proper)
    (proper' : (object b).Proper) (keep : String → Bool) :
    (object (a.filter fun field => keep field.1)).Alike
      (.object (b.filter fun field => keep field.1)) := by
  rw [alike_object_iff (proper.filter _) (proper'.filter _), canonicalFields_filter,
    canonicalFields_filter]
  exact ((alike_object_iff proper proper').mp alike).filter _

theorem perm_cons_erase {key : String} {value : Document} {fields : List (String × Document)}
    (distinct : (fields.map (·.1)).Nodup) (found : lookup key fields = some value) :
    fields.Perm ((key, value) :: erase key fields) := by
  induction fields with
  | nil => cases found
  | cons field rest ih =>
    obtain ⟨name, document⟩ := field
    rw [List.map_cons, List.nodup_cons] at distinct
    rw [lookup] at found
    split_ifs at found with same
    · obtain rfl := Option.some.inj found
      have gone : erase key ((name, document) :: rest) = rest := by
        rw [erase, List.filter_cons_of_neg (by simp [same]), List.filter_eq_self]
        intro other member
        have differs : other.1 ≠ name := fun equal =>
          distinct.1 (List.mem_map.mpr ⟨other, member, equal⟩)
        simpa [same] using differs
      rw [gone, same]
    · have kept : erase key ((name, document) :: rest) = (name, document) :: erase key rest := by
        rw [erase, List.filter_cons_of_pos (by simp [same]), erase]
      rw [kept]
      exact ((ih distinct.2 found).cons _).trans (List.Perm.swap _ _ _)

theorem lookup_erase {key name : String} (differs : key ≠ name)
    (fields : List (String × Document)) : lookup key (erase name fields) = lookup key fields := by
  induction fields with
  | nil => rfl
  | cons field rest ih =>
    by_cases same : field.1 = name
    · have skipped : field.1 ≠ key := fun equal => differs (equal.symm.trans same)
      rw [erase, List.filter_cons_of_neg (by simp [same]), lookup, if_neg skipped]
      exact ih
    · rw [erase, List.filter_cons_of_pos (by simp [same]), lookup, lookup]
      rw [erase] at ih
      rw [ih]

/-- Objects are alike if they have the same value under a name and are alike without it. -/
theorem alike_of_erase {key : String} {value : Document} (proper : (object a).Proper)
    (proper' : (object b).Proper) (here : lookup key a = some value)
    (there : lookup key b = some value)
    (rest : (object (erase key a)).Alike (.object (erase key b))) :
    (object a).Alike (.object b) := by
  have perm : ∀ {fields : List (String × Document)}, (object fields).Proper →
      lookup key fields = some value →
        (canonicalFields fields).Perm (canonicalFields ((key, value) :: erase key fields)) := by
    intro fields proper found
    rw [canonicalFields_eq, canonicalFields_eq]
    exact (perm_cons_erase proper.1 found).map _
  have rest := (alike_object_iff (proper.filter _) (proper'.filter _)).mp rest
  rw [alike_object_iff proper proper']
  exact (perm proper here).trans ((rest.cons _).trans (perm proper' there).symm)

end Objects

end ActorGlue.Document
