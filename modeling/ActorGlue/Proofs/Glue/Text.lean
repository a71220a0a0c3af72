import ActorGlue.Glue.Emit
import ActorGlue.Proofs.Parse.Balance
import ActorGlue.Proofs.Token.Words

/-!
# Text in parts

Generated text is put together from fixed parts and from words, numerals and types. A fixed part
that ends with a blank or a mark is read in front of anything; the other parts are read in front of
what they do not go on with. Each part changes the closers that are owed, so a text that closes what
it opens is read as balanced lexemes.
-/

namespace ActorGlue

open Scan

theorem reads_append {first second : String} {lexemes others : List Lexeme} {ahead : List Char}
    (here : Reads first.toList lexemes (second.toList ++ ahead))
    (there : Reads second.toList others ahead) :
    Reads (first ++ second).toList (lexemes ++ others) ahead := by
  rw [String.toList_append]
  exact here.append there

/-- The text is read in front of another one and changes the closers that are owed. -/
def Goes (text ahead : List Char) (before after : List String) : Prop :=
  ∃ lexemes, Reads text lexemes ahead ∧ owe before lexemes = some after

namespace Goes

variable {first second ahead : List Char} {before middle after : List String}

theorem append (here : Goes first (second ++ ahead) before middle)
    (there : Goes second ahead middle after) : Goes (first ++ second) ahead before after := by
  obtain ⟨lexemes, reads, owes⟩ := here
  obtain ⟨others, reads', owes'⟩ := there
  exact ⟨lexemes ++ others, reads.append reads', by rw [owe_append, owes, Option.bind_some, owes']⟩

theorem outer {text : List Char} (goes : Goes text ahead before after) (outer : List String) :
    Goes text ahead (before ++ outer) (after ++ outer) := by
  obtain ⟨lexemes, reads, owes⟩ := goes
  exact ⟨lexemes, reads, owe_outer owes outer⟩

/-- A token that is no delimiter changes nothing. -/
theorem of_plain {lexeme : Lexeme} (reads : Reads lexeme.text.toList [lexeme] ahead)
    (plain : lexeme.isDelimiter = false) (owed : List String) :
    Goes lexeme.text.toList ahead owed owed :=
  ⟨[lexeme], reads, by rw [owe_cons, owing_of_plain plain]; rfl⟩

end Goes

/-- The text is read in front of anything. -/
def Settled (text : String) (before after : List String) : Prop :=
  ∀ ahead, Goes text.toList ahead before after

/-- The text is read, with all its groups closed, in front of what it does not go on with. -/
def Whole (text : String) : Prop :=
  ∀ ahead, Ends ahead → Goes text.toList ahead [] []

/-- What a fixed text leaves owed. -/
def fixed? (text : String) (before : List String) : Option (List String) :=
  (settled? text.toList).bind (owe before)

/-- Whatever ends in front of the text ends there. -/
def isEnd (text : String) : Bool :=
  text.toList.head?.any fun c => isSeal c && c ≠ '.'

theorem settled_of_fixed {text : String} {before after : List String}
    (fixed : fixed? text before = some after) : Settled text before after := by
  intro ahead
  obtain ⟨lexemes, settled, owes⟩ := Option.bind_eq_some_iff.mp fixed
  exact ⟨lexemes, reads_settled settled ahead, owes⟩

namespace Settled

variable {first second : String} {before middle after : List String}

theorem empty (owed : List String) : Settled "" owed owed :=
  fun ahead => ⟨[], .nil ahead, rfl⟩

theorem append (here : Settled first before middle) (there : Settled second middle after) :
    Settled (first ++ second) before after := by
  intro ahead
  rw [String.toList_append]
  exact (here _).append (there ahead)

theorem whole (settled : Settled first [] []) : Whole first :=
  fun ahead _ => settled ahead

theorem outer (settled : Settled first before after) (owed : List String) :
    Settled first (before ++ owed) (after ++ owed) :=
  fun ahead => (settled ahead).outer owed

end Settled

theorem ends_of_isEnd {text : String} (isEnd : isEnd text) (ahead : List Char) :
    Ends (text.toList ++ ahead) := by
  unfold ActorGlue.isEnd at isEnd
  cases chars : text.toList with
  | nil => simp [chars] at isEnd
  | cons c rest =>
    simp only [chars, List.head?_cons, Option.any_some, Bool.and_eq_true,
      decide_eq_true_eq] at isEnd
    exact ends_of_seal isEnd.1 isEnd.2 _

theorem isEnd_append {first : String} (isEnd : isEnd first) (second : String) :
    ActorGlue.isEnd (first ++ second) := by
  unfold ActorGlue.isEnd at isEnd ⊢
  cases chars : first.toList with
  | nil => simp [chars] at isEnd
  | cons c rest => simpa [chars] using isEnd

namespace Whole

variable {first second : String} {before after : List String}

theorem settled (whole : Whole first) (isEnd : isEnd second) (settled : Settled second before after) :
    Settled (first ++ second) before after := by
  intro ahead
  rw [String.toList_append]
  exact ((whole _ (ends_of_isEnd isEnd ahead)).outer before).append (settled ahead)

theorem append (whole : Whole first) (isEnd : isEnd second) (whole' : Whole second) :
    Whole (first ++ second) := by
  intro ahead ends
  rw [String.toList_append]
  exact (whole _ (ends_of_isEnd isEnd ahead)).append (whole' ahead ends)

theorem after_settled (settled : Settled first [] []) (whole : Whole second) :
    Whole (first ++ second) := by
  intro ahead ends
  rw [String.toList_append]
  exact (settled _).append (whole ahead ends)

theorem of_token {lexeme : Lexeme} (isToken : lexeme.IsToken) (other : lexeme.kind ≠ .punct) :
    Whole lexeme.text := by
  intro ahead ends
  have plain : lexeme.isDelimiter = false := by
    simp [Lexeme.isDelimiter, Lexeme.closer?, Lexeme.isCloser, Lexeme.isPunctOf, other]
  exact .of_plain (reads_token isToken other ends) plain []

theorem of_word {name : String} (word : IsWord name) : Whole name :=
  of_token word (by simp)

theorem toString (n : Nat) : Whole (ToString.toString n) := by
  obtain ⟨kind, other, isToken⟩ := isToken_toString n
  exact of_token isToken other

end Whole

/-- Colons are read in front of anything. -/
theorem settled_colons (owed : List String) : Settled "::" owed owed := by
  intro ahead
  have isToken : Lexeme.IsToken ⟨.punct, "::"⟩ := ⟨':', [':'], rfl, rfl⟩
  have stays : ∀ c, goesOn "::".toList c = false := by
    intro c
    simp [goesOn, compoundMarks, List.isPrefixOf]
  exact .of_plain (reads_mark isToken rfl (fun c _ => stays c) (by simp)) (by decide) owed

/-- A word behind a point. -/
theorem Whole.member {first second : String} (whole : Whole first) (word : IsWord second) :
    Whole (first ++ "." ++ second) := by
  intro ahead ends
  obtain ⟨c, more, text, start⟩ := word.exists_start
  have point : Goes ".".toList (second.toList ++ ahead) [] [] := by
    have isToken : Lexeme.IsToken ⟨.punct, "."⟩ := ⟨'.', [], rfl, rfl⟩
    refine .of_plain (reads_mark isToken rfl (fun d first => ?_) (by simp)) (by decide) []
    obtain rfl : c = d := by simpa [text] using first
    by_contra goes
    have pair := @goesOn_cases _ ['.'] (by simp) (by simpa using goes)
    obtain rfl : c = '.' := by simpa using pair
    cases start
  have dotted : Ends ((".".toList ++ second.toList) ++ ahead) := by
    refine ⟨by simp; decide, fun d rest same => ?_⟩
    obtain ⟨rfl, -⟩ : c = d ∧ more ++ ahead = rest := by simpa [text] using same
    exact isDigit_of_isWordStart start
  rw [String.append_assoc, String.toList_append, String.toList_append]
  exact (whole _ dotted).append (point.append (Whole.of_word word ahead ends))

/-- Items with a separator between them. -/
theorem whole_intercalate {separator : String} (settled : Settled separator [] [])
    (ends : isEnd separator) {items : List String} (whole : ∀ item ∈ items, Whole item) :
    Whole (separator.intercalate items) := by
  induction items with
  | nil => exact (Settled.empty []).whole
  | cons item rest ih =>
    obtain ⟨first, others⟩ := List.forall_mem_cons.mp whole
    cases rest with
    | nil => simpa using first
    | cons next rest =>
      rw [String.intercalate_cons_cons, String.append_assoc]
      exact first.append (isEnd_append ends _) (.after_settled settled (ih others))

theorem whole_intercalate_commas {items : List String} (whole : ∀ item ∈ items, Whole item) :
    Whole (", ".intercalate items) :=
  whole_intercalate (settled_of_fixed (by decide +kernel)) (by decide) whole

/-- What stands between parentheses. -/
theorem settled_applied {front inner : String} (opens : fixed? front [] = some [")"])
    (whole : Whole inner) : Settled (front ++ inner ++ ")") [] [] := by
  rw [String.append_assoc]
  have closes : Settled ")" [")"] [] := settled_of_fixed (by decide +kernel)
  exact (settled_of_fixed opens).append (whole.settled (by decide) closes)

/-- A word between two texts. -/
theorem settled_around {front name back : String} {before middle after : List String}
    (opens : fixed? front before = some middle) (word : IsWord name) (ends : isEnd back)
    (closes : Settled back middle after) : Settled (front ++ name ++ back) before after := by
  rw [String.append_assoc]
  exact (settled_of_fixed opens).append ((Whole.of_word word).settled ends closes)

theorem settled_tupleText {items : List String} (whole : ∀ item ∈ items, Whole item) :
    Settled (Glue.tupleText items) [] [] := by
  unfold Glue.tupleText
  split
  · rename_i item
    have alone : Whole (item ++ ",") :=
      ((whole item (by simp)).settled (by decide) (settled_of_fixed (by decide +kernel))).whole
    have settled := settled_applied (by decide +kernel : fixed? "(" [] = some [")"]) alone
    simp only [String.append_assoc] at settled ⊢
    exact settled
  · exact settled_applied (by decide +kernel) (whole_intercalate_commas whole)

section Lines

/-- Lines are read one after the other, and change the closers that are owed. -/
def Lines : List String → List String → List String → Prop
  | [], before, after => before = after
  | line :: rest, before, after =>
    ∃ middle, Settled (line ++ "\n") before middle ∧ Lines rest middle after

/-- Lines with a line break behind each of them. -/
def ended : List String → String
  | [] => ""
  | line :: rest => line ++ "\n" ++ ended rest

theorem ended_append (lines others : List String) :
    ended (lines ++ others) = ended lines ++ ended others := by
  induction lines with
  | nil => simp [ended]
  | cons line rest ih => simp only [List.cons_append, ended, ih, String.append_assoc]

theorem intercalate_ended (lines : List String) (last : String) :
    "\n".intercalate (lines ++ [last]) = ended lines ++ last := by
  induction lines with
  | nil => simp [ended]
  | cons line rest ih =>
    obtain ⟨next, others, same⟩ : ∃ next others, rest ++ [last] = next :: others :=
      List.exists_cons_of_ne_nil (by simp)
    rw [List.cons_append, same, String.intercalate_cons_cons, ← same, ih, ended]
    simp only [String.append_assoc]

theorem settled_break (owed : List String) : Settled "\n" owed owed :=
  fun ahead => ⟨[], reads_blank (by decide) ahead, rfl⟩

/-- Blanks in front of a text change nothing. -/
theorem Settled.indented {text : String} {before after : List String}
    (settled : Settled text before after) : Settled ("    " ++ text) before after := by
  have blanks : Settled "    " before before := fun ahead =>
    ⟨[], reads_settled (show settled? "    ".toList = some [] by decide +kernel) ahead, rfl⟩
  exact blanks.append settled

namespace Lines

variable {first second lines : List String} {before middle after : List String}

theorem nil (owed : List String) : Lines [] owed owed :=
  rfl

theorem single {line : String} (settled : Settled (line ++ "\n") before after) :
    Lines [line] before after :=
  ⟨after, settled, rfl⟩

theorem append (here : Lines first before middle) (there : Lines second middle after) :
    Lines (first ++ second) before after := by
  induction first generalizing before with
  | nil =>
    cases here
    exact there
  | cons line rest ih =>
    obtain ⟨next, settled, rest⟩ := here
    exact ⟨next, settled, ih rest⟩

theorem outer (here : Lines lines before after) (owed : List String) :
    Lines lines (before ++ owed) (after ++ owed) := by
  induction lines generalizing before with
  | nil => exact congrArg (· ++ owed) here
  | cons line rest ih =>
    obtain ⟨next, settled, rest⟩ := here
    exact ⟨next ++ owed, settled.outer owed, ih rest⟩

theorem indent (here : Lines lines before after) : Lines (Glue.indent lines) before after := by
  induction lines generalizing before with
  | nil => exact here
  | cons line rest ih =>
    obtain ⟨next, settled, rest⟩ := here
    refine ⟨next, ?_, ih rest⟩
    by_cases blank : line.isEmpty
    · obtain rfl : line = "" := String.isEmpty_iff.mp blank
      exact settled
    · simp only [blank, Bool.false_eq_true, if_false, String.append_assoc]
      exact settled.indented

/-- A body between a line that opens a group and one that closes it. -/
theorem between {head last : String} {owed : List String} (opens : Settled (head ++ "\n") [] owed)
    (body : Lines lines [] []) (closes : Settled (last ++ "\n") owed after) :
    Lines (Glue.enclosed head lines last) [] after :=
  ⟨owed, opens, (body.indent.outer owed).append (.single closes)⟩

theorem enclosed {head last : String} (opens : Settled (head ++ "\n") [] ["\x7d"])
    (body : Lines lines [] []) (closes : Settled (last ++ "\n") ["\x7d"] []) :
    Lines (Glue.enclosed head lines last) [] [] :=
  between opens body closes

theorem settled (here : Lines lines before after) : Settled (ended lines) before after := by
  induction lines generalizing before with
  | nil =>
    cases here
    exact .empty _
  | cons line rest ih =>
    obtain ⟨next, settled, rest⟩ := here
    exact settled.append (ih rest)

end Lines

end Lines

end ActorGlue
