import ActorGlue.Bytes
import ActorGlue.Document.Json
import ActorGlue.Proofs.Document.Order
import ActorGlue.Text.Literal

/-!
# JSON text has one meaning

The compact text of a document determines it: what a character is written as is read back as that
character, texts end at the first quote that is not escaped, and numbers, lists and objects end at
a mark that cannot go on with them.
-/

namespace ActorGlue

namespace Text

theorem hexValue_hexDigit : ∀ n < 16, hexValue (hexDigit n) = n := by
  decide

theorem toNat_hexDigit_lt : ∀ n < 16, (hexDigit n).toNat < 128 := by
  decide

/-- The digits of a number that has not more of them stand for it. -/
theorem hexNumber_hexDigits {width n : Nat} (bounded : n < 16 ^ width) :
    hexNumber (hexDigits width n) = n := by
  induction width generalizing n with
  | zero =>
    have : n = 0 := by simpa using bounded
    subst this
    rfl
  | succ width ih =>
    have quotient : n / 16 < 16 ^ width := by
      rw [Nat.div_lt_iff_lt_mul (by decide), ← pow_succ]
      exact bounded
    have digits := ih quotient
    unfold hexNumber at digits ⊢
    rw [hexDigits, List.foldl_append, digits, List.foldl_cons, List.foldl_nil,
      hexValue_hexDigit _ (by omega)]
    omega

theorem toNat_lt_of_mem_hexDigits {width n : Nat} {c : Char} (member : c ∈ hexDigits width n) :
    c.toNat < 128 := by
  induction width generalizing n with
  | zero => cases member
  | succ width ih =>
    rcases List.mem_append.mp member with early | last
    · exact ih early
    · rw [List.mem_singleton.mp last]
      exact toNat_hexDigit_lt _ (by omega)

end Text

namespace Document

section Characters

/-- What the characters of an escape of one letter stand for. -/
def escapeMeaning (c : Char) : Char :=
  if c = 'n' then '\n'
  else if c = 'r' then '\r'
  else if c = 't' then '\t'
  else if c = 'b' then '\x08'
  else if c = 'f' then '\x0c'
  else c

/-- The character that a pair of surrogates stands for. -/
def ofSurrogates (high low : Nat) : Char :=
  Char.ofNat (0x10000 + (high - 0xd800) * 0x400 + (low - 0xdc00))

/-- Reads one character of a JSON text. -/
def readChar : List Char → Option (Char × List Char)
  | '\\' :: 'u' :: a :: b :: c :: d :: rest =>
    let unit := Text.hexNumber [a, b, c, d]
    if 0xd800 ≤ unit ∧ unit < 0xdc00 then
      match rest with
      | _ :: _ :: e :: f :: g :: h :: rest =>
        some (ofSurrogates unit (Text.hexNumber [e, f, g, h]), rest)
      | _ => none
    else some (Char.ofNat unit, rest)
  | '\\' :: c :: rest => some (escapeMeaning c, rest)
  | c :: rest => some (c, rest)
  | [] => none

theorem exists_hexDigits_four (n : Nat) : ∃ a b c d, Text.hexDigits 4 n = [a, b, c, d] :=
  ⟨_, _, _, _, rfl⟩

/-- A character outside of the surrogates is one unit. -/
theorem readChar_unit {c : Char} (basic : c.toNat < 0x10000) (rest : List Char) :
    readChar ('\\' :: 'u' :: Text.hexDigits 4 c.toNat ++ rest) = some (c, rest) := by
  obtain ⟨x, y, z, w, digits⟩ := exists_hexDigits_four c.toNat
  have value : Text.hexNumber [x, y, z, w] = c.toNat := by
    rw [← digits, Text.hexNumber_hexDigits (by omega)]
  have valid : c.toNat < 0xd800 ∨ 0xdfff < c.toNat := by
    rcases c.valid with low | high
    · exact .inl low
    · exact .inr high.1
  rw [digits]
  simp only [List.cons_append, List.nil_append, readChar, value]
  rw [if_neg (by omega), Char.ofNat_toNat]

/-- A character above the first plane is a pair of surrogates. -/
theorem readChar_pair {c : Char} (high : 0x10000 ≤ c.toNat) (rest : List Char) :
    readChar ('\\' :: 'u' :: Text.hexDigits 4 (0xd800 + (c.toNat - 0x10000) / 0x400) ++
      ('\\' :: 'u' :: Text.hexDigits 4 (0xdc00 + (c.toNat - 0x10000) % 0x400) ++ rest)) =
      some (c, rest) := by
  have bounded : c.toNat < 0x110000 := by
    rcases c.valid with low | high
    · exact lt_trans low (by decide)
    · exact high.2
  obtain ⟨x, y, z, w, digits⟩ := exists_hexDigits_four (0xd800 + (c.toNat - 0x10000) / 0x400)
  obtain ⟨x', y', z', w', digits'⟩ := exists_hexDigits_four (0xdc00 + (c.toNat - 0x10000) % 0x400)
  have value : Text.hexNumber [x, y, z, w] = 0xd800 + (c.toNat - 0x10000) / 0x400 := by
    rw [← digits, Text.hexNumber_hexDigits (by omega)]
  have value' : Text.hexNumber [x', y', z', w'] = 0xdc00 + (c.toNat - 0x10000) % 0x400 := by
    rw [← digits', Text.hexNumber_hexDigits (by omega)]
  have whole : ofSurrogates (0xd800 + (c.toNat - 0x10000) / 0x400)
      (0xdc00 + (c.toNat - 0x10000) % 0x400) = c := by
    have sum : 0x10000 + (0xd800 + (c.toNat - 0x10000) / 0x400 - 0xd800) * 0x400 +
        (0xdc00 + (c.toNat - 0x10000) % 0x400 - 0xdc00) = c.toNat := by omega
    rw [ofSurrogates, sum, Char.ofNat_toNat]
  rw [digits, digits']
  simp only [List.cons_append, List.nil_append, readChar, value, value', whole]
  rw [if_pos (by omega)]

/-- What a character is written as is read as that character. -/
theorem readChar_jsonChar (c : Char) (rest : List Char) :
    readChar (jsonChar c ++ rest) = some (c, rest) := by
  unfold jsonChar
  split_ifs with quote slash line ret tab back form plain
  · subst quote; rfl
  · subst slash; rfl
  · subst line; rfl
  · subst ret; rfl
  · subst tab; rfl
  · subst back; rfl
  · subst form; rfl
  · rw [List.singleton_append, readChar]
    · simp [slash]
    · simp [slash]
  · by_cases basic : c.toNat < 0x10000
    · simpa [utf16Units, basic] using readChar_unit basic rest
    · simpa [utf16Units, basic] using readChar_pair (by omega) rest

theorem jsonChar_head (c : Char) : ∃ first more, jsonChar c = first :: more ∧ first ≠ '"' := by
  unfold jsonChar
  split_ifs with quote slash line ret tab back form plain
  on_goal 9 => unfold utf16Units; split
  all_goals exact ⟨_, _, rfl, by first | decide | exact quote⟩

/-- The end of a text is its first quote that is not escaped. -/
theorem jsonChars_inj (first second : List Char) {rest rest' : List Char}
    (same : first.flatMap jsonChar ++ '"' :: rest = second.flatMap jsonChar ++ '"' :: rest') :
    first = second ∧ rest = rest' := by
  induction first generalizing second with
  | nil =>
    cases second with
    | nil => exact ⟨rfl, by simpa using same⟩
    | cons d second =>
      obtain ⟨lead, more, written, other⟩ := jsonChar_head d
      simp only [List.flatMap_nil, List.nil_append, List.flatMap_cons, written,
        List.cons_append, List.cons.injEq] at same
      exact absurd same.1.symm other
  | cons c first ih =>
    cases second with
    | nil =>
      obtain ⟨lead, more, written, other⟩ := jsonChar_head c
      simp only [List.flatMap_nil, List.nil_append, List.flatMap_cons, written,
        List.cons_append, List.cons.injEq] at same
      exact absurd same.1 other
    | cons d second =>
      simp only [List.flatMap_cons, List.append_assoc] at same
      have read := congrArg readChar same
      rw [readChar_jsonChar, readChar_jsonChar, Option.some.injEq, Prod.mk.injEq] at read
      obtain ⟨rfl, later⟩ := read
      obtain ⟨rfl, rests⟩ := ih second later
      exact ⟨rfl, rests⟩

theorem jsonText_inj {a b : String} {rest rest' : List Char}
    (same : jsonText a ++ rest = jsonText b ++ rest') : a = b ∧ rest = rest' := by
  simp only [jsonText, List.cons_append, List.append_assoc, List.nil_append, List.cons.injEq,
    true_and] at same
  obtain ⟨same, rests⟩ := jsonChars_inj _ _ same
  exact ⟨String.toList_injective same, rests⟩

end Characters

section Numbers

/-- A character of an integer. -/
def isNumeral (c : Char) : Bool :=
  c = '-' || c.isDigit

theorem isNumeral_of_mem {n : Int} {c : Char} (member : c ∈ (toString n).toList) :
    isNumeral c = true := by
  have digits : ∀ m : Nat, c ∈ m.repr.toList → isNumeral c = true := by
    intro m member
    rw [Nat.repr, String.toList_ofList] at member
    simp [isNumeral, Nat.isDigit_of_mem_toDigits (by decide) le_rfl member]
  rw [Int.toString_eq_repr] at member
  cases n with
  | ofNat m => exact digits m member
  | negSucc m =>
    have parts : (Int.negSucc m).repr.toList = '-' :: m.succ.repr.toList := by
      simp [Int.repr]
    rw [parts, List.mem_cons] at member
    rcases member with rfl | member
    · rfl
    · exact digits _ member

theorem toString_ne_nil (n : Int) : (toString n).toList ≠ [] := by
  rw [Int.toString_eq_repr]
  cases n with
  | ofNat m => exact fun empty => Nat.repr_ne_empty (String.toList_eq_nil_iff.mp empty)
  | negSucc m => simp [Int.repr]

end Numbers

/-- The text cannot go on with a document that stands before it. -/
def Stops (rest : List Char) : Prop :=
  ∀ c ∈ rest.head?, c = ',' ∨ c = ']' ∨ c = '}'

theorem stops_cons {c : Char} {rest : List Char} (mark : c = ',' ∨ c = ']' ∨ c = '}') :
    Stops (c :: rest) := by
  intro first member
  cases member
  exact mark

theorem stops_nil : Stops [] := by
  intro c member
  cases member

theorem Stops.takeWhile {part rest : List Char} (stops : Stops rest)
    (numeral : ∀ c ∈ part, isNumeral c = true) : (part ++ rest).takeWhile isNumeral = part := by
  rw [List.takeWhile_append_of_pos numeral]
  cases rest with
  | nil => simp
  | cons c rest =>
    have other : isNumeral c = false := by
      rcases stops c rfl with rfl | rfl | rfl <;> decide
    simp [other]

theorem int_inj {m n : Int} {rest rest' : List Char} (stops : Stops rest) (stops' : Stops rest')
    (same : (toString m).toList ++ rest = (toString n).toList ++ rest') :
    m = n ∧ rest = rest' := by
  have parts := congrArg (List.takeWhile isNumeral) same
  rw [stops.takeWhile fun _ => isNumeral_of_mem, stops'.takeWhile fun _ => isNumeral_of_mem] at parts
  have equal : m = n := by
    rw [← Int.repr_inj, ← Int.toString_eq_repr, ← Int.toString_eq_repr]
    exact String.toList_injective parts
  subst equal
  exact ⟨rfl, List.append_cancel_left same⟩

section Compact

/-- What a first character says: all that start a number say the same. -/
def leadOf (c : Char) : Char :=
  if isNumeral c then '0' else c

/-- What the first character of the text of a document says. -/
def lead : Document → Char
  | .null => 'n'
  | .bool value => if value then 't' else 'f'
  | .int _ | .float _ => '0'
  | .text _ => '"'
  | .list _ => '['
  | .object _ => '\x7b'

theorem compact_lead (document : Document) (proper : document.Proper) :
    ∃ c rest, document.compact = c :: rest ∧ leadOf c = document.lead := by
  cases document with
  | null | text value | list items | object fields => exact ⟨_, _, rfl, rfl⟩
  | bool value => cases value <;> exact ⟨_, _, rfl, rfl⟩
  | int n =>
    obtain ⟨c, rest, text⟩ := List.exists_cons_of_ne_nil (toString_ne_nil n)
    exact ⟨c, rest, text, if_pos (isNumeral_of_mem (text ▸ List.mem_cons_self))⟩
  | float _ => exact proper.elim

def compactField (field : String × Document) : List Char :=
  jsonText field.1 ++ ':' :: field.2.compact

theorem compactAll_eq (items : List Document) : compactAll items = items.map compact := by
  induction items with
  | nil => rfl
  | cons item rest ih => rw [compactAll, ih, List.map_cons]

theorem compactFields_eq (fields : List (String × Document)) :
    compactFields fields = fields.map compactField := by
  induction fields with
  | nil => rfl
  | cons field rest ih => rw [compactFields, ih, List.map_cons, compactField]

/-- Two things are told apart by their texts, whatever follows that cannot go on with them. -/
def Told {α : Type} (write : α → List Char) (first second : α) : Prop :=
  ∀ rest rest' : List Char, Stops rest → Stops rest' →
    write first ++ rest = write second ++ rest' → first = second ∧ rest = rest'

/-- Parts with a comma before each. -/
def trailed (parts : List (List Char)) : List Char :=
  parts.flatMap (',' :: ·)

theorem joined_cons (part : List Char) (parts : List (List Char)) :
    joined [','] (part :: parts) = part ++ trailed parts := by
  induction parts generalizing part with
  | nil => simp [trailed, joined]
  | cons next rest ih =>
    calc joined [','] (part :: next :: rest)
      _ = part ++ [','] ++ joined [','] (next :: rest) := rfl
      _ = part ++ trailed (next :: rest) := by rw [ih]; simp [trailed]

section Lists

variable {α : Type} {write : α → List Char} {closer : Char} {rest rest' : List Char}

theorem stops_trailed (closes : closer = ']' ∨ closer = '}') (parts : List (List Char)) :
    Stops (trailed parts ++ closer :: rest) := by
  cases parts with
  | nil => exact stops_cons (.inr closes)
  | cons part parts => exact stops_cons (.inl rfl)

/-- Things that are told apart are told apart in a list with commas before them. -/
theorem trailed_inj (closes : closer = ']' ∨ closer = '}') {first second : List α}
    (told : ∀ item ∈ first, ∀ other ∈ second, Told write item other)
    (same : trailed (first.map write) ++ closer :: rest =
      trailed (second.map write) ++ closer :: rest') : first = second ∧ rest = rest' := by
  have comma : closer ≠ ',' := by
    rcases closes with rfl | rfl <;> decide
  induction first generalizing second with
  | nil =>
    cases second with
    | nil => exact ⟨rfl, (List.cons.inj same).2⟩
    | cons other others => exact absurd (List.cons.inj same).1 comma
  | cons item items ih =>
    cases second with
    | nil => exact absurd (List.cons.inj same).1.symm comma
    | cons other others =>
      simp only [List.map_cons, trailed, List.flatMap_cons, List.cons_append,
        List.append_assoc, List.cons.injEq, true_and] at same
      obtain ⟨rfl, later⟩ := told item List.mem_cons_self other List.mem_cons_self _ _
        (stops_trailed closes _) (stops_trailed closes _) same
      have among : ∀ item ∈ items, ∀ other ∈ others, Told write item other :=
        fun item member other member' =>
          told item (List.mem_cons_of_mem _ member) other (List.mem_cons_of_mem _ member')
      obtain ⟨rfl, rests⟩ := ih among later
      exact ⟨rfl, rests⟩

/-- The same with commas between them. -/
theorem joined_inj (closes : closer = ']' ∨ closer = '}') {first second : List α}
    (told : ∀ item ∈ first, ∀ other ∈ second, Told write item other)
    (starts : ∀ item ∈ first ++ second, ∃ c more, write item = c :: more ∧ c ≠ closer)
    (same : joined [','] (first.map write) ++ closer :: rest =
      joined [','] (second.map write) ++ closer :: rest') : first = second ∧ rest = rest' := by
  cases first with
  | nil =>
    cases second with
    | nil => exact ⟨rfl, (List.cons.inj same).2⟩
    | cons other others =>
      obtain ⟨c, more, text, differs⟩ := starts other (by simp)
      rw [List.map_cons, joined_cons, text] at same
      exact absurd (List.cons.inj same).1.symm differs
  | cons item items =>
    cases second with
    | nil =>
      obtain ⟨c, more, text, differs⟩ := starts item (by simp)
      rw [List.map_cons, joined_cons, text] at same
      exact absurd (List.cons.inj same).1 differs
    | cons other others =>
      apply trailed_inj closes told
      rw [List.map_cons, List.map_cons, joined_cons, joined_cons] at same
      simp only [List.map_cons, trailed, List.flatMap_cons, List.cons_append,
        List.append_assoc] at same ⊢
      rw [same]

end Lists

theorem told_field {field other : String × Document} (values : Told compact field.2 other.2) :
    Told compactField field other := by
  intro rest rest' stops stops' same
  simp only [compactField, List.append_assoc, List.cons_append] at same
  obtain ⟨names, later⟩ := jsonText_inj same
  obtain ⟨equal, rests⟩ := values _ _ stops stops' (List.cons.inj later).2
  exact ⟨Prod.ext names equal, rests⟩

theorem compactField_lead (field : String × Document) :
    ∃ c more, compactField field = c :: more ∧ c ≠ '}' :=
  ⟨'"', _, rfl, by decide⟩

theorem lead_ne_bracket (document : Document) : document.lead ≠ ']' := by
  cases document with
  | bool value => cases value <;> simp [lead]
  | _ => simp [lead]

theorem told_list {items others : List Document} (proper : ProperAll items)
    (proper' : ProperAll others)
    (told : ∀ item ∈ items, ∀ other ∈ others, Told compact item other) :
    Told compact (.list items) (.list others) := by
  intro rest rest' _ _ same
  simp only [compact, compactAll_eq, List.cons_append, List.append_assoc, List.nil_append,
    List.cons.injEq, true_and] at same
  have starts : ∀ item ∈ items ++ others, ∃ c more, compact item = c :: more ∧ c ≠ ']' := by
    intro item member
    have isProper : item.Proper := by
      rcases List.mem_append.mp member with here | there
      · exact properAll_iff.mp proper item here
      · exact properAll_iff.mp proper' item there
    obtain ⟨c, more, text, leads⟩ := compact_lead item isProper
    refine ⟨c, more, text, ?_⟩
    rintro rfl
    exact lead_ne_bracket item leads.symm
  obtain ⟨rfl, rests⟩ := joined_inj (.inl rfl) told starts same
  exact ⟨rfl, rests⟩

theorem told_object {fields others : List (String × Document)}
    (told : ∀ field ∈ fields, ∀ other ∈ others, Told compact field.2 other.2) :
    Told compact (.object fields) (.object others) := by
  intro rest rest' _ _ same
  simp only [compact, compactFields_eq, List.cons_append, List.append_assoc, List.nil_append,
    List.cons.injEq, true_and] at same
  obtain ⟨rfl, rests⟩ := joined_inj (.inr rfl)
    (fun field member other member' => told_field (told field member other member'))
    (fun field _ => compactField_lead field) same
  exact ⟨rfl, rests⟩

/-- Documents that start differently are told apart by the first character. -/
theorem told_of_lead {a b : Document} (proper : a.Proper) (proper' : b.Proper)
    (kin : a.lead = b.lead → Told compact a b) : Told compact a b := by
  intro rest rest' stops stops' same
  obtain ⟨c, more, text, leads⟩ := compact_lead a proper
  obtain ⟨c', more', text', leads'⟩ := compact_lead b proper'
  have first := same
  rw [text, text'] at first
  obtain ⟨rfl, -⟩ := List.cons.inj first
  exact kin (leads.symm.trans leads') rest rest' stops stops' same

/-- A document that starts as another one is of its kind. -/
theorem kind_of_lead {a b : Document} (proper : b.Proper) (same : a.lead = b.lead) :
    match a with
    | .null => b = .null
    | .bool value => b = .bool value
    | .int _ | .float _ => ∃ n, b = .int n
    | .text _ => ∃ value, b = .text value
    | .list _ => ∃ items, b = .list items
    | .object _ => ∃ fields, b = .object fields := by
  cases b with
  | float _ => exact proper.elim
  | _ => cases a <;> grind [lead]

theorem told_self (document : Document) : Told compact document document :=
  fun _ _ _ _ same => ⟨rfl, List.append_cancel_left same⟩

mutual

/-- The compact text of a document determines it, and where it ends. -/
theorem told_compact : (a : Document) → a.Proper → (b : Document) → b.Proper → Told compact a b
  | .null, proper, b, proper' | .bool value, proper, b, proper' => by
    apply told_of_lead proper proper'
    intro same
    rw [kind_of_lead proper' same]
    exact told_self _
  | .int n, proper, b, proper' => by
    apply told_of_lead proper proper'
    intro same
    obtain ⟨m, rfl⟩ := kind_of_lead proper' same
    intro rest rest' stops stops' texts
    obtain ⟨rfl, rests⟩ := int_inj stops stops' texts
    exact ⟨rfl, rests⟩
  | .float _, proper, _, _ => proper.elim
  | .text value, proper, b, proper' => by
    apply told_of_lead proper proper'
    intro same
    obtain ⟨other, rfl⟩ := kind_of_lead proper' same
    intro rest rest' _ _ texts
    obtain ⟨rfl, rests⟩ := jsonText_inj texts
    exact ⟨rfl, rests⟩
  | .list items, proper, b, proper' => by
    apply told_of_lead proper proper'
    intro same
    obtain ⟨others, rfl⟩ := kind_of_lead proper' same
    exact told_list proper proper' fun item member other member' =>
      told_all items proper item member other (properAll_iff.mp proper' other member')
  | .object fields, proper, b, proper' => by
    apply told_of_lead proper proper'
    intro same
    obtain ⟨others, rfl⟩ := kind_of_lead proper' same
    exact told_object fun field member other member' =>
      told_fields fields proper.2 field member other.2
        (properFields_iff.mp proper'.2 other member')

theorem told_all : (items : List Document) → ProperAll items → ∀ item ∈ items,
    ∀ other : Document, other.Proper → Told compact item other
  | [], _, _, member => nomatch member
  | first :: rest, proper, item, member => by
    rcases List.mem_cons.mp member with here | later
    · exact here ▸ told_compact first proper.1
    · exact told_all rest proper.2 item later

theorem told_fields : (fields : List (String × Document)) → ProperFields fields →
    ∀ field ∈ fields, ∀ other : Document, other.Proper → Told compact field.2 other
  | [], _, _, member => nomatch member
  | (_, value) :: rest, proper, field, member => by
    rcases List.mem_cons.mp member with here | later
    · exact here ▸ told_compact value proper.1
    · exact told_fields rest proper.2 field later

end

theorem compact_inj {a b : Document} (proper : a.Proper) (proper' : b.Proper)
    (same : a.compact = b.compact) : a = b := by
  refine (told_compact a proper b proper' [] [] stops_nil stops_nil ?_).1
  rw [same]

end Compact

section Ascii

/-- A text has ASCII characters only. -/
def Ascii (text : List Char) : Prop :=
  ∀ c ∈ text, c.toNat < 128

instance (text : List Char) : Decidable (Ascii text) :=
  List.decidableBAll (fun c : Char => c.toNat < 128) text

theorem Ascii.append {first second : List Char} (here : Ascii first) (there : Ascii second) :
    Ascii (first ++ second) := by
  intro c member
  exact (List.mem_append.mp member).elim (here c) (there c)

theorem Ascii.cons {c : Char} {rest : List Char} (here : c.toNat < 128) (there : Ascii rest) :
    Ascii (c :: rest) := by
  intro d member
  rcases List.mem_cons.mp member with rfl | later
  · exact here
  · exact there d later

theorem Ascii.joined {separator : List Char} (between : Ascii separator)
    {parts : List (List Char)} (all : ∀ part ∈ parts, Ascii part) :
    Ascii (Document.joined separator parts) := by
  induction parts with
  | nil => exact fun _ member => nomatch member
  | cons part rest ih =>
    have later := ih fun part member => all part (List.mem_cons_of_mem _ member)
    cases rest with
    | nil => exact all part List.mem_cons_self
    | cons next rest => exact ((all part List.mem_cons_self).append between).append later

theorem ascii_jsonChar (c : Char) : Ascii (jsonChar c) := by
  rw [jsonChar]
  split_ifs with _ _ _ _ _ _ _ printable
  · decide
  · decide
  · decide
  · decide
  · decide
  · decide
  · decide
  · intro d member
    rw [List.mem_singleton.mp member]
    simp only [Bool.and_eq_true, decide_eq_true_eq] at printable
    omega
  · intro d member
    obtain ⟨unit, -, digit⟩ := List.mem_flatMap.mp member
    simp only [List.mem_cons] at digit
    rcases digit with rfl | rfl | digit
    · decide
    · decide
    · exact Text.toNat_lt_of_mem_hexDigits digit

theorem ascii_jsonText (text : String) : Ascii (jsonText text) := by
  apply Ascii.append _ (by decide)
  apply Ascii.cons (by decide)
  intro c member
  obtain ⟨d, -, part⟩ := List.mem_flatMap.mp member
  exact ascii_jsonChar d c part

theorem toNat_lt_of_isNumeral {c : Char} (numeral : isNumeral c = true) : c.toNat < 128 := by
  simp only [isNumeral, Char.isDigit, Bool.or_eq_true, Bool.and_eq_true, decide_eq_true_eq] at numeral
  rcases numeral with rfl | ⟨-, above⟩
  · decide
  · have bound : c.toNat ≤ 57 := above
    omega

mutual

theorem ascii_compact : (document : Document) → document.Proper → Ascii document.compact
  | .null, _ => by decide
  | .bool true, _ => by decide
  | .bool false, _ => by decide
  | .int _, _ => fun _ member => toNat_lt_of_isNumeral (isNumeral_of_mem member)
  | .float _, proper => proper.elim
  | .text value, _ => ascii_jsonText value
  | .list items, proper =>
    (Ascii.cons (by decide) (Ascii.joined (by decide) (ascii_all items proper))).append (by decide)
  | .object fields, proper =>
    (Ascii.cons (by decide) (Ascii.joined (by decide) (ascii_fields fields proper.2))).append
      (by decide)

theorem ascii_all : (items : List Document) → ProperAll items →
    ∀ part ∈ compactAll items, Ascii part
  | [], _, _, member => nomatch member
  | item :: rest, proper, part, member => by
    rcases List.mem_cons.mp member with rfl | later
    · exact ascii_compact item proper.1
    · exact ascii_all rest proper.2 part later

theorem ascii_fields : (fields : List (String × Document)) → ProperFields fields →
    ∀ part ∈ compactFields fields, Ascii part
  | [], _, _, member => nomatch member
  | (key, value) :: rest, proper, part, member => by
    rcases List.mem_cons.mp member with rfl | later
    · exact (ascii_jsonText key).append (Ascii.cons (by decide) (ascii_compact value proper.1))
    · exact ascii_fields rest proper.2 part later

end

theorem ofAscii_inj {first second : List Char} (ascii : Ascii first) (ascii' : Ascii second)
    (same : Bytes.ofAscii first = Bytes.ofAscii second) : first = second := by
  have decoded : ∀ text, Ascii text → (Bytes.ofAscii text).map (fun byte => Char.ofNat byte.toNat) =
      text := by
    intro text ascii
    rw [Bytes.ofAscii, List.map_map]
    conv_rhs => rw [← List.map_id text]
    apply List.map_congr_left
    intro c member
    have small : c.toNat < 2 ^ 8 := by have := ascii c member; omega
    rw [Function.comp, UInt8.toNat_ofNat', Nat.mod_eq_of_lt small, Char.ofNat_toNat, id]
  rw [← decoded first ascii, same, decoded second ascii']

end Ascii

end Document

end ActorGlue
