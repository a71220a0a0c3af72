import ActorGlue.Parse.Source
import ActorGlue.Proofs.Parse.Ending
import ActorGlue.Proofs.Parse.Rows

/-!
# Parsing ends

Every type and every item takes a lexeme, so the repetitions over them get on and there are layers
enough for the types inside of each other. A text whose tokens are calm therefore has a tree, or an
error at a place. A block that is not calm can be read for ever.
-/

namespace ActorGlue

namespace Parse

/-- The parser ends on the lexemes ahead, and it takes at least one of them if it succeeds. -/
def Consumes {α : Type} (parser : Parser α) (ahead : List Lexeme) : Prop :=
  parser ahead ≠ .error .endless ∧ ∀ {value left}, parser ahead = .ok (value, left) →
    left <:+ ahead ∧ left.length < ahead.length

theorem consumes {α : Type} {fits : List Lexeme → Prop} {parser : Parser α}
    (ends : Ends fits parser) [Shrinks parser] [Progresses parser] {ahead : List Lexeme}
    (fit : fits ahead) : Consumes parser ahead :=
  ⟨Ends.ends fit, fun read => ⟨Shrinks.suffix read, Progresses.shorter read⟩⟩

instance (depth : Nat) (sum : Bool) : Progresses ((grammar depth).ty sum) := by
  cases depth with
  | zero => exact progresses_throw
  | succ depth => exact inferInstanceAs (Progresses (tyLayer (grammar depth) sum))

section Items

/-! ## Items take a lexeme -/

variable {before : Nat} {attributes : List (Attribute Extent)} {visibility : Visibility Extent}

instance : Progresses (structItem before attributes visibility) := by
  unfold structItem; infer_instance

instance : Progresses (implItem before attributes) := by unfold implItem; infer_instance

instance (kind : String) : Progresses (itemBody kind) := by unfold itemBody; infer_instance

instance {passed : List Lexeme} {keyword : Lexeme} {rest : List Lexeme} :
    Progresses (otherRest before attributes visibility passed keyword rest) := by
  unfold otherRest; dsimp only; infer_instance

instance : Progresses (otherItem before attributes visibility) where
  shorter h := by
    obtain ⟨passed, keyword, rest, -, h⟩ := otherItem_eq_ok.mp h
    exact Progresses.shorter h

instance : Progresses (itemRest before attributes visibility) := by
  unfold itemRest
  refine @progresses_bind_right _ _ _ _ inferInstance fun ahead => ?_
  cases ahead <;> dsimp only <;> infer_instance

instance : Progresses item where
  shorter {ahead left value} h := by
    cases ahead with
    | nil => cases h
    | cons lexeme rest =>
      rw [item_apply (List.cons_ne_nil _ _)] at h
      exact Progresses.shorter h

section Files

variable {allowed : List Lexeme → Complaint → Prop} [Allows allowed] [Advances allowed memberStep]
  [∀ negative, Complains allowed (implTypes negative)]

instance : Complains allowed fileStep := by unfold fileStep; infer_instance

instance : Advances allowed fileStep := by unfold fileStep; infer_instance

/-- A file is read to an end, because each of its items takes a lexeme. -/
instance : Complains allowed file :=
  inferInstanceAs (Complains allowed (Parse.attributes true >>= fun _ => many fileStep))

end Files

/-- At a closing parenthesis or bracket before an exclamation mark, the members of a block are read
for ever: an invocation ends where it stands. -/
theorem members_endless {closer bang : Lexeme} (closes : closer.isPunctOf [")", "]"])
    (bangs : bang.is "!") (rest : List Lexeme) :
    members (closer :: bang :: rest) = .error .endless := by
  obtain ⟨kind, text⟩ := closer
  obtain ⟨other, exclamation⟩ := bang
  obtain ⟨rfl, named⟩ : kind = .punct ∧ (text = ")" ∨ text = "]") := by
    simpa [Lexeme.isPunctOf] using closes
  obtain ⟨sort, rfl⟩ : (other = .punct ∨ other = .ident) ∧ exclamation = "!" := by
    simpa [Lexeme.is] using bangs
  obtain rfl | rfl := named <;> obtain rfl | rfl := sort <;> exact endless_of_stuck rfl _

end Items

end Parse

open Parse

/-- Reading has come to a result or to an error at a place. -/
def Concludes {α : Type} (outcome : Except ParseFailure α) : Prop :=
  (∃ value, outcome = .ok value) ∨ ∃ error, outcome = .error (.rejected error)

theorem Source.exists_failure (source : Source) {complaint : Complaint}
    (other : complaint ≠ .endless) : ∃ error, source.failure complaint = .rejected error := by
  unfold Source.failure
  split <;> first | exact ⟨_, rfl⟩ | exact absurd rfl other

/-- A parser that ends concludes, whatever is said about the lexemes it leaves. -/
theorem Source.concludes_run {α β : Type} {source : Source} {parser : Parser α}
    (ends : parser source.lexemes ≠ .error .endless)
    {next : α × List Lexeme → Except ParseFailure β} (rest : ∀ result, Concludes (next result)) :
    Concludes (source.run parser >>= next) := by
  unfold Source.run
  cases ran : parser source.lexemes with
  | ok result => exact rest result
  | error complaint =>
    obtain ⟨error, same⟩ := source.exists_failure fun endless => ends (endless ▸ ran)
    exact .inr ⟨error, by simp only [same]; rfl⟩

section Texts

variable {text : List Char} {tokens : List Token}

theorem Source.read_of_tokenize (read : tokenize text = .ok tokens) :
    Source.read text = .ok ⟨text, tokens.toArray⟩ := by
  rw [Source.read, read]
  rfl

theorem concludes_parseType (read : tokenize text = .ok tokens) : Concludes (parseType text) := by
  rw [parseType, Source.read_of_tokenize read]
  have ends : Ends (fun _ => True) (Parse.ty true) := inferInstance
  refine Source.concludes_run (ends.ends trivial) fun result => ?_
  obtain ⟨ty, _ | ⟨lexeme, rest⟩⟩ := result
  · exact .inl ⟨_, rfl⟩
  · exact .inr ⟨_, rfl⟩

theorem concludes_parseItem (read : tokenize text = .ok tokens)
    (calm : Calm (tokens.map (·.toLexeme))) : Concludes (parseItem text) := by
  rw [parseItem, Source.read_of_tokenize read]
  refine Source.concludes_run (Ends.ends calm) fun result => ?_
  obtain ⟨item, _ | ⟨lexeme, rest⟩⟩ := result
  · exact .inl ⟨_, rfl⟩
  · exact .inr ⟨_, rfl⟩

theorem concludes_parseFile (read : tokenize text = .ok tokens)
    (calm : Calm (tokens.map (·.toLexeme))) : Concludes (parseFile text) := by
  rw [parseFile, Source.read_of_tokenize read]
  exact Source.concludes_run (Ends.ends calm) fun result => .inl ⟨_, rfl⟩

/-- A text with calm tokens is parsed to an end, and wherever among its tokens a type or an item is
read, a token is taken. Layers for types inside of each other do not run out if there is one more
of them than there are tokens. -/
theorem parsing_ends (read : tokenize text = .ok tokens) (calm : Calm (tokens.map (·.toLexeme))) :
    Concludes (parseType text) ∧ Concludes (parseItem text) ∧ Concludes (parseFile text) ∧
      ∀ ahead, ahead <:+ tokens.map (·.toLexeme) →
        (∀ sum, Consumes (Parse.ty sum) ahead) ∧ Consumes Parse.item ahead ∧
          ∀ sum depth, tokens.length < depth → Consumes ((grammar depth).ty sum) ahead := by
  refine ⟨concludes_parseType read, concludes_parseItem read calm, concludes_parseFile read calm,
    fun ahead behind => ⟨fun sum => ?_, ?_, fun sum depth enough => ?_⟩⟩
  · have ends : Ends (fun _ => True) (Parse.ty sum) := inferInstance
    exact consumes ends trivial
  · have ends : Ends Calm Parse.item := inferInstance
    exact consumes ends (Inherits.suffix behind calm)
  · refine consumes ((grammar_ends depth).ty sum) (Nat.lt_of_le_of_lt behind.length_le ?_)
    rwa [List.length_map]

end Texts

/-- A block with an invocation among its members, and with a closing parenthesis before a word. -/
theorem parsing_ends_invocation :
    ∃ tokens, tokenize "impl A \x7b m!(x); fn f(x: (u8, B<C>)) \x7b\x7d \x7d".toList = .ok tokens ∧
      Calm (tokens.map (·.toLexeme)) ∧
      Concludes (parseItem "impl A \x7b m!(x); fn f(x: (u8, B<C>)) \x7b\x7d \x7d".toList) ∧
      ∀ ahead, ahead <:+ tokens.map (·.toLexeme) → Consumes Parse.item ahead := by
  have calm : (tokenize "impl A \x7b m!(x); fn f(x: (u8, B<C>)) \x7b\x7d \x7d".toList).toOption.any
      fun tokens => Calm (tokens.map (·.toLexeme)) := by decide +kernel
  cases read : tokenize "impl A \x7b m!(x); fn f(x: (u8, B<C>)) \x7b\x7d \x7d".toList with
  | error failure =>
      rw [read] at calm
      cases calm
  | ok tokens =>
      rw [read] at calm
      have calm : Calm (tokens.map (·.toLexeme)) := of_decide_eq_true calm
      obtain ⟨-, item, -, calls⟩ := parsing_ends read calm
      exact ⟨tokens, rfl, calm, item, fun ahead behind => (calls ahead behind).2.1⟩

end ActorGlue
