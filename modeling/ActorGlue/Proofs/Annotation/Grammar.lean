import ActorGlue.Proofs.Expansion.Annotations
import ActorGlue.Proofs.Outcome
import ActorGlue.Proofs.Text.Numeral

/-!
# The grammar of annotations

An annotation is a list of entries with commas between them, and perhaps one behind the last of
them. An entry is a key that the target takes, a sign `=` and one literal. Reading gives one
directive for each entry, from its key to its literal, and a text that is no such list is refused
at the first entry that breaks the grammar. One thing more is read: a minus sign in front of a
literal that is no binding does not count.
-/

namespace ActorGlue.Annotation

section Definitions

/-! ## Entries -/

/-- The keys that a target takes. -/
inductive Takes : Target → String → Key → Prop where
  | state : Takes .state "codec" .codec
  | payload : Takes .payload "codec" .codec
  | actor : Takes .actor "dispatch" .dispatch
  | method : Takes .method "binding" .binding
  | number : Takes .method "method_num" .binding

/-- The literal is a string, not of bytes, and has the given value. -/
structure IsText (literal : Lexeme) (value : String) : Prop where
  kind : literal.kind = .str
  plain : literal.text.toList.head? ≠ some 'b'
  value : value = String.ofList (Text.literalValue literal.text.toList)

/-- What a literal sets behind a key. -/
inductive Says : Key → Lexeme → Setting → Prop where
  | codec {literal : Lexeme} (text : IsText literal "dag-cbor") :
      Says .codec literal (.codec .dagCbor)
  | dispatch {literal : Lexeme} (text : IsText literal "method-num") :
      Says .dispatch literal (.dispatch .methodNumber)
  | binding {literal : Lexeme} {number : MethodNumber} (kind : literal.kind = .int)
      (value : Text.IntegerLiteral literal.text.toList number.value) :
      Says .binding literal (.binding (.number number))

/-- The fault of a literal that sets nothing behind a key. -/
inductive Refuses : Key → Lexeme → Fault → Prop where
  | codecFormat {literal : Lexeme} (none : ∀ name, ¬IsText literal name) :
      Refuses .codec literal (.codecFormat "expected a string literal")
  | codec {literal : Lexeme} {name : String} (text : IsText literal name)
      (other : name ≠ "dag-cbor") : Refuses .codec literal (.unknownCodec name)
  | dispatchFormat {literal : Lexeme} (none : ∀ name, ¬IsText literal name) :
      Refuses .dispatch literal (.dispatchFormat "expected a string literal")
  | dispatch {literal : Lexeme} {name : String} (text : IsText literal name)
      (other : name ≠ "method-num") : Refuses .dispatch literal (.unknownDispatch name)
  | bindingFormat {literal : Lexeme} (kind : literal.kind ≠ .int) :
      Refuses .binding literal .bindingValue
  | binding {literal : Lexeme} (kind : literal.kind = .int)
      (none : ∀ n, Text.IntegerLiteral literal.text.toList n → Nat.pow 2 64 ≤ n) :
      Refuses .binding literal (.numericValue literal.text)

/-- The tokens of an entry. -/
structure Entry where
  name : Token
  equals : Token
  sign : Option Token
  literal : Token

/-- The tokens of an entry in their order. -/
def Entry.tokens (entry : Entry) : List Token :=
  entry.name :: entry.equals :: (entry.sign.toList ++ [entry.literal])

/-- An entry stands from its key to its literal. -/
def Entry.span (entry : Entry) : Span :=
  ⟨entry.name.start, entry.literal.stop⟩

/-- Nothing stands in front of the literal of a key, or a minus sign that does not count. -/
def Unsigned (key : Key) (sign : Option Token) : Prop :=
  ∀ minus ∈ sign, minus.isPunct "-" ∧ key ≠ .binding

/-- What an entry sets. -/
structure Entry.Sets (target : Target) (entry : Entry) (setting : Setting) : Prop where
  word : entry.name.kind = .ident
  mark : entry.equals.isPunct "="
  reads : ∃ key, Takes target entry.name.text key ∧ Unsigned key entry.sign ∧
    Says key entry.literal.toLexeme setting

/-- The tokens are a list of entries with commas between them, and perhaps one behind the last of
them. -/
@[mk_iff]
inductive Lists (target : Target) : List Token → List (Setting × Span) → Prop where
  | empty : Lists target [] []
  | last {entry : Entry} {setting : Setting} (sets : entry.Sets target setting) :
      Lists target entry.tokens [(setting, entry.span)]
  | next {entry : Entry} {setting : Setting} {comma : Token} {rest : List Token}
      {settings : List (Setting × Span)} (sets : entry.Sets target setting)
      (mark : comma.isPunct ",") (lists : Lists target rest settings) :
      Lists target (entry.tokens ++ comma :: rest) ((setting, entry.span) :: settings)

/-! ## Breaks of the grammar -/

/-- What is wrong with the tokens behind the sign `=` of an entry. -/
@[mk_iff]
inductive Amiss (key : Key) (start : Nat) (stop : Span) : List Token → Misplaced → Prop where
  | missing : Amiss key start stop [] ⟨.expected "a literal value", stop⟩
  | signed {minus literal : Token} {rest : List Token} (mark : minus.isPunct "-")
      (binding : key = .binding) :
      Amiss key start stop (minus :: literal :: rest) ⟨.bindingValue, ⟨start, literal.stop⟩⟩
  | refused {sign : Option Token} {literal : Token} {rest : List Token} {fault : Fault}
      (unsigned : Unsigned key sign) (only : sign = none → literal.isPunct "-" → rest = [])
      (refuses : Refuses key literal.toLexeme fault) :
      Amiss key start stop (sign.toList ++ literal :: rest) ⟨fault, ⟨start, literal.stop⟩⟩

/-- What is wrong with the entry at the front of the tokens. -/
@[mk_iff]
inductive Flawed (target : Target) (stop : Span) : List Token → Misplaced → Prop where
  | name {name : Token} {rest : List Token} (other : name.kind ≠ .ident) :
      Flawed target stop (name :: rest) ⟨.expected "an attribute name", name.span⟩
  | key {name : Token} {rest : List Token} (word : name.kind = .ident)
      (unknown : ∀ key, ¬Takes target name.text key) :
      Flawed target stop (name :: rest) ⟨.unknownAttribute name.text, name.span⟩
  | equals {name : Token} {rest : List Token} {key : Key} (word : name.kind = .ident)
      (takes : Takes target name.text key) (other : ∀ token ∈ rest.head?, ¬token.isPunct "=") :
      Flawed target stop (name :: rest)
        ⟨.expected ("'=' after '" ++ name.text ++ "'"), (rest.head?.map (·.span)).getD stop⟩
  | value {name equals : Token} {rest : List Token} {key : Key} {misplaced : Misplaced}
      (word : name.kind = .ident) (takes : Takes target name.text key)
      (mark : equals.isPunct "=") (amiss : Amiss key name.start stop rest misplaced) :
      Flawed target stop (name :: equals :: rest) misplaced

/-- The first break of the grammar: entries with commas behind them stand in front of it. -/
@[mk_iff]
inductive Breaks (target : Target) (stop : Span) : List Token → Misplaced → Prop where
  | entry {tokens : List Token} {misplaced : Misplaced}
      (flawed : Flawed target stop tokens misplaced) : Breaks target stop tokens misplaced
  | comma {entry : Entry} {setting : Setting} {other : Token} {rest : List Token}
      (sets : entry.Sets target setting) (mark : ¬other.isPunct ",") :
      Breaks target stop (entry.tokens ++ other :: rest)
        ⟨.expected "',' between attributes", other.span⟩
  | later {entry : Entry} {setting : Setting} {comma : Token} {rest : List Token}
      {misplaced : Misplaced} (sets : entry.Sets target setting) (mark : comma.isPunct ",")
      (breaks : Breaks target stop rest misplaced) :
      Breaks target stop (entry.tokens ++ comma :: rest) misplaced

end Definitions

variable {setting : Setting} {n steps : Nat} {misplaced : Misplaced}

section Literals

/-! ## Literals -/

variable {target : Target} {key : Key} {literal : Lexeme}

theorem key?_eq_some {name : String} : key? target name = some key ↔ Takes target name key := by
  constructor
  · intro found
    unfold key? at found
    split at found <;> cases found <;> constructor
  · rintro ⟨⟩ <;> rfl

theorem textValue?_eq_some {value : String} : textValue? literal = some value ↔
    IsText literal value := by
  unfold textValue?
  constructor
  · intro found
    split_ifs at found with isText
    simp only [Bool.and_eq_true, decide_eq_true_eq] at isText
    exact ⟨isText.1, isText.2, (Option.some.inj found).symm⟩
  · rintro ⟨kind, plain, rfl⟩
    simp [kind, plain]

theorem IsText.value_unique {value other : String} (text : IsText literal value)
    (text' : IsText literal other) : value = other :=
  text.value.trans text'.value.symm

/-- Reads a literal that has to be the string with the wanted value. -/
def readText (wanted : String) (setting : Setting) (format : Fault) (unknown : String → Fault)
    (literal : Lexeme) : Except Fault Setting :=
  match textValue? literal with
  | none => .error format
  | some name => if name = wanted then .ok setting else .error (unknown name)

theorem readSetting_codec : readSetting literal .codec =
    readText "dag-cbor" (.codec .dagCbor) (.codecFormat "expected a string literal")
      .unknownCodec literal := by
  rw [readSetting, readText]
  cases textValue? literal with
  | none => rfl
  | some name => by_cases same : name = "dag-cbor" <;> simp [Codec.ofName?, Codec.name, same]

theorem readSetting_dispatch : readSetting literal .dispatch =
    readText "method-num" (.dispatch .methodNumber) (.dispatchFormat "expected a string literal")
      .unknownDispatch literal := by
  rw [readSetting, readText]
  cases textValue? literal with
  | none => rfl
  | some name => by_cases same : name = "method-num" <;> simp [Dispatch.ofName?, Dispatch.name, same]

theorem settles_readText {wanted : String} {format : Fault} {unknown : String → Fault} :
    Settles (readText wanted setting format unknown literal)
      (fun found => IsText literal wanted ∧ found = setting)
      (fun fault => (∀ name, ¬IsText literal name) ∧ fault = format ∨
        ∃ name, IsText literal name ∧ name ≠ wanted ∧ fault = unknown name) := by
  rw [readText]
  cases found : textValue? literal with
  | none =>
    have none (name : String) : ¬IsText literal name := by
      rw [← textValue?_eq_some, found]
      simp
    apply Settles.error
    · simp [none]
    · simp [none]
  | some name =>
    have text := textValue?_eq_some.mp found
    have only (other : String) : IsText literal other ↔ other = name := by
      constructor
      · intro text'
        exact text'.value_unique text
      · rintro rfl
        exact text
    dsimp only
    by_cases same : name = wanted
    · subst same
      rw [if_pos rfl]
      apply Settles.ok <;> simp [only]
    · rw [if_neg same]
      apply Settles.error
      · simp [only, Ne.symm same]
      · simp [only, same]

theorem ofInt?_eq_some {number : MethodNumber} :
    MethodNumber.ofInt? n = some number ↔ number.value = n := by
  unfold MethodNumber.ofInt?
  constructor
  · intro found
    split_ifs at found
    cases found
    rfl
  · rintro rfl
    exact dif_pos ⟨Int.natCast_nonneg _, number.bounded⟩

theorem ofInt?_eq_none : MethodNumber.ofInt? n = none ↔ Nat.pow 2 64 ≤ n := by
  unfold MethodNumber.ofInt?
  simp

theorem settles_numberValue (isToken : literal.IsToken) :
    Settles (numberValue literal)
      (fun number => literal.kind = .int ∧
        Text.IntegerLiteral literal.text.toList number.value)
      (fun fault => literal.kind ≠ .int ∧ fault = .bindingValue ∨ literal.kind = .int ∧
        (∀ n, Text.IntegerLiteral literal.text.toList n → Nat.pow 2 64 ≤ n) ∧
          fault = .numericValue literal.text) := by
  by_cases int : literal.kind = .int
  · have reads (value : Int) : Text.intLiteral literal.text.toList = .ok value ↔ ∃ n : Nat,
        value = n ∧ Text.IntegerLiteral literal.text.toList n :=
      Text.intLiteral_eq_ok (literal.isWordPart_of_isToken isToken int)
    rw [numberValue, if_pos int]
    cases found : Text.intLiteral literal.text.toList with
    | ok value =>
      obtain ⟨n, rfl, stands⟩ := (reads value).mp found
      have only (other : Nat) : Text.IntegerLiteral literal.text.toList other ↔ other = n := by
        constructor
        · intro stands'
          have found' := (reads other).mpr ⟨other, rfl, stands'⟩
          rw [found, Except.ok.injEq, Int.natCast_inj] at found'
          exact found'.symm
        · rintro rfl
          exact stands
      dsimp only
      cases fits : MethodNumber.ofInt? n with
      | some number =>
        have small : n < Nat.pow 2 64 := ofInt?_eq_some.mp fits ▸ number.bounded
        apply Settles.ok
        · intro other
          rw [only, ← ofInt?_eq_some, fits, Option.some.injEq, eq_comm (a := other)]
          simp [int]
        · simp only [int, only, ne_eq, not_true_eq_false, false_and, false_or, true_and,
            forall_eq, not_and]
          intro fault large
          omega
      | none =>
        have large := ofInt?_eq_none.mp fits
        apply Settles.error
        · intro number
          rw [only, ← ofInt?_eq_some, fits]
          simp
        · simp only [int, only, ne_eq, not_true_eq_false, false_and, false_or, true_and,
            forall_eq, large, implies_true]
    | error fault =>
      have none (n : Nat) : ¬Text.IntegerLiteral literal.text.toList n := by
        intro stands
        rw [(reads n).mpr ⟨n, rfl, stands⟩] at found
        cases found
      apply Settles.error <;> simp [int, none]
  · rw [numberValue, if_neg int]
    apply Settles.error <;> simp [int]

theorem settles_readSetting (isToken : literal.IsToken) :
    Settles (readSetting literal key) (Says key literal) (Refuses key literal) := by
  cases key with
  | codec =>
    rw [readSetting_codec]
    apply settles_readText.congr
    · intro setting
      constructor
      · rintro ⟨text, rfl⟩
        exact .codec text
      · rintro ⟨text⟩
        exact ⟨text, rfl⟩
    · intro fault
      constructor
      · rintro (⟨none, rfl⟩ | ⟨name, text, other, rfl⟩)
        · exact .codecFormat none
        · exact .codec text other
      · rintro (none | ⟨text, other⟩)
        · exact .inl ⟨none, rfl⟩
        · exact .inr ⟨_, text, other, rfl⟩
  | dispatch =>
    rw [readSetting_dispatch]
    apply settles_readText.congr
    · intro setting
      constructor
      · rintro ⟨text, rfl⟩
        exact .dispatch text
      · rintro ⟨⟩
        exact ⟨‹_›, rfl⟩
    · intro fault
      constructor
      · rintro (⟨none, rfl⟩ | ⟨name, text, other, rfl⟩)
        · exact .dispatchFormat none
        · exact .dispatch text other
      · rintro ⟨⟩
        · exact .inl ⟨‹_›, rfl⟩
        · exact .inr ⟨_, ‹_›, ‹_›, rfl⟩
  | binding =>
    rw [readSetting]
    apply (settles_numberValue isToken).map.congr
    · intro setting
      constructor
      · rintro ⟨number, ⟨kind, value⟩, rfl⟩
        exact .binding kind value
      · rintro ⟨⟩
        exact ⟨_, ⟨‹_›, ‹_›⟩, rfl⟩
    · intro fault
      constructor
      · rintro (⟨kind, rfl⟩ | ⟨kind, none, rfl⟩)
        · exact .bindingFormat kind
        · exact .binding kind none
      · rintro ⟨⟩
        · exact .inl ⟨‹_›, rfl⟩
        · exact .inr ⟨‹_›, ‹_›, rfl⟩

end Literals

section Values

/-! ## Values -/

variable {key : Key} {start : Nat} {stop : Span} {value literal : Token} {rest more : List Token}

/-- What is read behind the sign `=` of an entry: one literal, and perhaps a minus sign that does
not count. -/
def Valued (key : Key) (start : Nat) (tokens : List Token) (read : Read) : Prop :=
  ∃ sign literal, tokens = sign.toList ++ literal :: read.rest ∧ Unsigned key sign ∧
    Says key literal.toLexeme read.setting ∧ read.span = ⟨start, literal.stop⟩

theorem settles_readLiteral (isToken : literal.toLexeme.IsToken) :
    Settles (readLiteral key start literal rest)
      (fun read => Says key literal.toLexeme read.setting ∧ read.rest = rest ∧
        read.span = ⟨start, literal.stop⟩)
      (fun misplaced => Refuses key literal.toLexeme misplaced.fault ∧
        misplaced.span = ⟨start, literal.stop⟩) := by
  have split : readLiteral key start literal rest =
      ((readSetting literal.toLexeme key).map (⟨·, ⟨start, literal.stop⟩, rest⟩)).mapError
        (⟨·, ⟨start, literal.stop⟩⟩) := by
    rw [readLiteral]
    cases readSetting literal.toLexeme key <;> rfl
  rw [split]
  apply (settles_readSetting isToken).map.mapError.congr
  · rintro ⟨setting, span, left⟩
    simp only [Read.mk.injEq]
    constructor
    · rintro ⟨_, holds, rfl, rfl, rfl⟩
      exact ⟨holds, rfl, rfl⟩
    · rintro ⟨holds, rfl, rfl⟩
      exact ⟨_, holds, rfl, rfl, rfl⟩
  · rintro ⟨fault, span⟩
    simp only [Misplaced.mk.injEq]
    constructor
    · rintro ⟨_, refuses, rfl, rfl⟩
      exact ⟨refuses, rfl⟩
    · rintro ⟨refuses, rfl⟩
      exact ⟨_, refuses, rfl, rfl⟩

theorem not_says_minus {minus : Lexeme} (mark : minus.isPunct "-") : ¬Says key minus setting := by
  simp only [Lexeme.isPunct, Bool.and_eq_true, decide_eq_true_eq] at mark
  intro reads
  cases reads with
  | codec text | dispatch text => cases mark.1.symm.trans text.kind
  | binding kind => cases mark.1.symm.trans kind

/-- The first of the tokens is the literal, or it is the sign in front of it. -/
theorem cons_eq_sign {sign : Option Token} : value :: rest = sign.toList ++ literal :: more ↔
    sign = none ∧ literal = value ∧ more = rest ∨ sign = some value ∧ rest = literal :: more := by
  cases sign with
  | none => simp [eq_comm]
  | some minus => simp [eq_comm]

theorem valued_cons {read : Read} : Valued key start (value :: rest) read ↔
    (Says key value.toLexeme read.setting ∧ read.rest = rest ∧
      read.span = ⟨start, value.stop⟩) ∨
    ∃ literal, rest = literal :: read.rest ∧ value.isPunct "-" ∧ key ≠ .binding ∧
      Says key literal.toLexeme read.setting ∧ read.span = ⟨start, literal.stop⟩ := by
  simp only [Valued, cons_eq_sign]
  constructor
  · rintro ⟨sign, literal, ⟨rfl, rfl, left⟩ | ⟨rfl, left⟩, unsigned, holds, span⟩
    · exact .inl ⟨holds, left, span⟩
    · obtain ⟨mark, other⟩ := unsigned value rfl
      exact .inr ⟨literal, left, mark, other, holds, span⟩
  · rintro (⟨holds, left, span⟩ | ⟨literal, left, mark, other, holds, span⟩)
    · exact ⟨none, value, .inl ⟨rfl, rfl, left⟩, by simp [Unsigned], holds, span⟩
    · exact ⟨some value, literal, .inr ⟨rfl, left⟩, by simp [Unsigned, mark, other], holds, span⟩

theorem amiss_cons : Amiss key start stop (value :: rest) misplaced ↔
    ((value.isPunct "-" → rest = []) ∧ Refuses key value.toLexeme misplaced.fault ∧
      misplaced.span = ⟨start, value.stop⟩) ∨
    ∃ literal more, rest = literal :: more ∧ value.isPunct "-" ∧
      (key = .binding ∧ misplaced = ⟨.bindingValue, ⟨start, literal.stop⟩⟩ ∨
        key ≠ .binding ∧ Refuses key literal.toLexeme misplaced.fault ∧
          misplaced.span = ⟨start, literal.stop⟩) := by
  constructor
  · rw [amiss_iff]
    rintro (⟨⟨⟩, -⟩ | ⟨minus, literal, more, mark, binding, same, rfl⟩ |
      ⟨sign, literal, more, fault, unsigned, only, refuses, same, rfl⟩)
    · obtain ⟨rfl, rfl⟩ := List.cons.inj same
      exact .inr ⟨literal, more, rfl, mark, .inl ⟨binding, rfl⟩⟩
    · obtain ⟨rfl, rfl, rfl⟩ | ⟨rfl, rfl⟩ := cons_eq_sign.mp same
      · exact .inl ⟨only rfl, refuses, rfl⟩
      · obtain ⟨mark, other⟩ := unsigned value rfl
        exact .inr ⟨literal, more, rfl, mark, .inr ⟨other, refuses, rfl⟩⟩
  · obtain ⟨fault, span⟩ := misplaced
    rintro (⟨only, refuses, rfl⟩ | ⟨literal, more, rfl, mark, ⟨binding, same⟩ |
      ⟨other, refuses, rfl⟩⟩)
    · have unsigned : Unsigned key none := by simp [Unsigned]
      exact .refused unsigned (fun _ => only) refuses
    · rw [same]
      exact .signed mark binding
    · have unsigned : Unsigned key (some value) := by simp [Unsigned, mark, other]
      exact .refused unsigned (by simp) refuses

theorem settles_readValue {tokens : List Token} (all : ∀ token ∈ tokens, token.toLexeme.IsToken) :
    Settles (readValue key start stop tokens) (Valued key start tokens)
      (Amiss key start stop tokens) := by
  cases tokens with
  | nil =>
    rw [readValue]
    apply Settles.error
    · rintro read ⟨sign, literal, split, -⟩
      simp at split
    · intro misplaced
      simp [amiss_iff]
  | cons value rest =>
    have isToken := all value List.mem_cons_self
    cases rest with
    | nil =>
      rw [readValue_single]
      apply (settles_readLiteral isToken).congr
      · simp [valued_cons]
      · simp [amiss_cons]
    | cons next rest =>
      have isToken' := all next (List.mem_cons_of_mem _ List.mem_cons_self)
      rw [readValue_cons]
      split_ifs with mark binding
      · apply Settles.error
        · simp [valued_cons, not_says_minus mark, binding]
        · simp [amiss_cons, mark, binding]
      · apply (settles_readLiteral isToken').congr
        · intro read
          simp only [valued_cons, not_says_minus mark, mark, false_and, false_or]
          constructor
          · rintro ⟨holds, rfl, span⟩
            exact ⟨next, rfl, trivial, binding, holds, span⟩
          · rintro ⟨literal, same, -, -, holds, span⟩
            obtain ⟨rfl, rfl⟩ := List.cons.inj same
            exact ⟨holds, rfl, span⟩
        · simp [amiss_cons, mark, binding]
      · apply (settles_readLiteral isToken).congr
        · simp [valued_cons, mark]
        · simp [amiss_cons, mark]

end Values

section Lists

/-! ## Lists of entries -/

variable {target : Target} {stop : Span} {name : Token} {tokens rest : List Token}

/-- What is read of an entry at the front of the tokens. -/
def Directed (target : Target) (tokens : List Token) (read : Read) : Prop :=
  ∃ entry : Entry, entry.Sets target read.setting ∧ tokens = entry.tokens ++ read.rest ∧
    read.span = entry.span

theorem directed_cons {read : Read} : Directed target (name :: rest) read ↔
    name.kind = .ident ∧ ∃ key, Takes target name.text key ∧ ∃ equals more, rest = equals :: more ∧
      equals.isPunct "=" ∧ Valued key name.start more read := by
  constructor
  · rintro ⟨⟨_, equals, sign, literal⟩, ⟨word, mark, key, takes, unsigned, holds⟩, same, span⟩
    obtain ⟨rfl, rfl⟩ := List.cons.inj same
    refine ⟨word, key, takes, equals, _, rfl, mark, sign, literal, ?_, unsigned, holds, span⟩
    simp
  · rintro ⟨word, key, takes, equals, more, rfl, mark, sign, literal, rfl, unsigned, holds, span⟩
    refine ⟨⟨name, equals, sign, literal⟩, ⟨word, mark, key, takes, unsigned, holds⟩, ?_, span⟩
    simp [Entry.tokens]

theorem settles_readDirective (all : ∀ token ∈ name :: rest, token.toLexeme.IsToken) :
    Settles (readDirective target stop (name :: rest)) (Directed target (name :: rest))
      (Flawed target stop (name :: rest)) := by
  by_cases word : name.kind = .ident
  · cases found : key? target name.text with
    | none =>
        have unknown (key : Key) : ¬Takes target name.text key := by
          rw [← key?_eq_some, found]
          simp
        simp only [readDirective, word, found, ne_eq, not_true_eq_false, if_false]
        apply Settles.error
        · simp [directed_cons, unknown]
        · simp [flawed_iff, word, unknown]
    | some key =>
      have only (other : Key) : Takes target name.text other ↔ other = key := by
        rw [← key?_eq_some, found, Option.some.injEq, eq_comm]
      simp only [readDirective, word, found, ne_eq, not_true_eq_false, if_false]
      cases rest with
      | nil =>
          apply Settles.error
          · simp [directed_cons]
          · simp [flawed_iff, word, only]
      | cons equals rest =>
        dsimp only
        split_ifs with mark
        · have behind : ∀ token ∈ rest, token.toLexeme.IsToken := fun token member =>
            all token (by simp [member])
          apply (settles_readValue behind).congr
          · simp [directed_cons, word, only, mark]
          · simp [flawed_iff, word, only, mark]
        · apply Settles.error
          · simp [directed_cons, mark]
          · simp [flawed_iff, word, only, mark]
  · simp only [readDirective, word, ne_eq, not_false_eq_true, if_true]
    apply Settles.error
    · simp [directed_cons, word]
    · simp [flawed_iff, word]

/-- What follows an entry in a list: nothing, or a comma and more entries. -/
def Follows (target : Target) (read : Read) (settings : List (Setting × Span)) : Prop :=
  read.rest = [] ∧ settings = [(read.setting, read.span)] ∨
    ∃ comma rest, read.rest = comma :: rest ∧ comma.isPunct "," ∧
      ∃ others, Lists target rest others ∧ settings = (read.setting, read.span) :: others

/-- What is wrong behind an entry. -/
def Derails (target : Target) (stop : Span) (read : Read) (misplaced : Misplaced) : Prop :=
  ∃ next rest, read.rest = next :: rest ∧
    (¬next.isPunct "," ∧ misplaced = ⟨.expected "',' between attributes", next.span⟩ ∨
      next.isPunct "," ∧ Breaks target stop rest misplaced)

theorem lists_cons {settings : List (Setting × Span)} : Lists target (name :: rest) settings ↔
    ∃ read, Directed target (name :: rest) read ∧ Follows target read settings := by
  constructor
  · generalize whole : name :: rest = tokens
    intro lists
    cases lists with
    | empty => cases whole
    | @last entry setting sets =>
      exact ⟨⟨setting, entry.span, []⟩, ⟨entry, sets, by simp, rfl⟩, .inl ⟨rfl, rfl⟩⟩
    | @next entry setting comma rest settings sets mark lists =>
      exact ⟨⟨setting, entry.span, comma :: rest⟩, ⟨entry, sets, rfl, rfl⟩,
        .inr ⟨comma, rest, rfl, mark, settings, lists, rfl⟩⟩
  · rintro ⟨⟨setting, span, left⟩, ⟨entry, sets, split, rfl⟩, follows⟩
    rw [split]
    obtain ⟨rfl, rfl⟩ | ⟨comma, rest, rfl, mark, others, lists, rfl⟩ := follows
    · rw [List.append_nil]
      exact .last sets
    · exact .next sets mark lists

theorem breaks_cons : Breaks target stop (name :: rest) misplaced ↔
    Flawed target stop (name :: rest) misplaced ∨
      ∃ read, Directed target (name :: rest) read ∧ Derails target stop read misplaced := by
  constructor
  · generalize whole : name :: rest = tokens
    intro breaks
    cases breaks with
    | entry flawed => exact .inl flawed
    | @comma entry setting other rest sets mark =>
      exact .inr ⟨⟨setting, entry.span, other :: rest⟩, ⟨entry, sets, rfl, rfl⟩,
        other, rest, rfl, .inl ⟨mark, rfl⟩⟩
    | @later entry setting comma rest misplaced sets mark breaks =>
      exact .inr ⟨⟨setting, entry.span, comma :: rest⟩, ⟨entry, sets, rfl, rfl⟩,
        comma, rest, rfl, .inr ⟨mark, breaks⟩⟩
  · rintro (flawed | ⟨⟨setting, span, left⟩, ⟨entry, sets, split, rfl⟩, next, rest, rfl, behind⟩)
    · exact .entry flawed
    · rw [split]
      obtain ⟨mark, rfl⟩ | ⟨mark, breaks⟩ := behind
      · exact .comma sets mark
      · exact .later sets mark breaks

theorem Directed.length_lt {read : Read} (directed : Directed target tokens read) :
    read.rest.length < tokens.length := by
  obtain ⟨entry, -, rfl, -⟩ := directed
  simp [Entry.tokens]
  omega

theorem settles_nil : Settles (readDirectives target stop steps [])
    (Lists target []) (Breaks target stop []) := by
  rw [readDirectives]
  apply Settles.ok
  · intro settings
    rw [lists_iff]
    simp [Entry.tokens]
  · intro misplaced
    rw [breaks_iff]
    simp [flawed_iff, Entry.tokens]

theorem settles_readBehind {read : Read} (later : ∀ comma rest, read.rest = comma :: rest →
    Settles (readDirectives target stop steps rest) (Lists target rest) (Breaks target stop rest)) :
    Settles (readBehind target stop steps read) (Follows target read)
      (Derails target stop read) := by
  obtain ⟨setting, span, left⟩ := read
  cases left with
  | nil => apply Settles.ok <;> simp [Follows, Derails]
  | cons comma rest =>
    rw [readBehind]
    dsimp only
    split_ifs with mark
    · apply (later comma rest rfl).map.congr <;> simp [Follows, Derails, mark]
    · apply Settles.error <;> simp [Follows, Derails, mark]

/-- Reading gives the settings of a list of entries, and else it fails at the first break. -/
theorem settles_readDirectives (all : ∀ token ∈ tokens, token.toLexeme.IsToken)
    (enough : tokens.length ≤ steps) :
    Settles (readDirectives target stop steps tokens) (Lists target tokens)
      (Breaks target stop tokens) := by
  induction steps generalizing tokens with
  | zero =>
    obtain rfl := List.length_eq_zero_iff.mp (Nat.le_zero.mp enough)
    exact settles_nil
  | succ steps ih =>
    cases tokens with
    | nil => exact settles_nil
    | cons name rest =>
      rw [readDirectives_cons]
      have later (read : Read) (directed : Directed target (name :: rest) read) :
          Settles (readBehind target stop steps read) (Follows target read)
            (Derails target stop read) := by
        apply settles_readBehind
        intro comma others left
        have shorter := directed.length_lt
        obtain ⟨entry, -, split, -⟩ := directed
        rw [left] at split shorter
        apply ih
        · intro token member
          apply all
          simp [split, member]
        · simp only [List.length_cons] at shorter enough
          omega
      apply ((settles_readDirective all).bind later).congr
      · intro settings
        exact lists_cons.symm
      · intro misplaced
        exact breaks_cons.symm

end Lists

/-- Reading an annotation is settled by its tokens. -/
theorem settles_read {text : List Char} {tokens : List Token} (tokenized : tokenize text = .ok tokens)
    (target : Target) (offset : Int) :
    Settles (read text target offset)
      (fun marks => ∃ settings, Lists target tokens settings ∧ marks = ⟨target, settings.map
        fun found => ⟨found.1, some ⟨found.2.start + offset, found.2.stop + offset⟩⟩⟩)
      (fun failure => ∃ misplaced, Breaks target ⟨text.length, text.length⟩ tokens misplaced ∧
        failure = .reported (.leaf ⟨misplaced.fault.message,
          some ⟨misplaced.span.start + offset, misplaced.span.stop + offset⟩, .error,
            some misplaced.fault.code⟩)) := by
  have all : ∀ token ∈ tokens, token.toLexeme.IsToken := by
    intro token member
    have reads := Scan.reads_iff_tokenize.mpr ⟨tokens, tokenized, rfl⟩
    exact reads.isToken _ (List.mem_map_of_mem member)
  have settles : Settles (readDirectives target ⟨text.length, text.length⟩ tokens.length tokens)
      (Lists target tokens) (Breaks target ⟨text.length, text.length⟩ tokens) :=
    settles_readDirectives all le_rfl
  rw [read_of_tokenize tokenized]
  exact settles.map.mapError

/-- An annotation is read exactly if its tokens are a list of entries: it has one directive for each
of them, in their order, with the place from the key to the literal. Every other annotation is
refused for the first break of the grammar. -/
theorem read_by_grammar {text : List Char} {tokens : List Token}
    (tokenized : tokenize text = .ok tokens) (target : Target) (offset : Int) :
    (∀ marks, read text target offset = .ok marks ↔ ∃ settings, Lists target tokens settings ∧
      marks = ⟨target, settings.map fun found =>
        ⟨found.1, some ⟨found.2.start + offset, found.2.stop + offset⟩⟩⟩) ∧
    ∀ failure, read text target offset = .error failure ↔ ∃ misplaced,
      Breaks target ⟨text.length, text.length⟩ tokens misplaced ∧
        failure = .reported (.leaf ⟨misplaced.fault.message,
          some ⟨misplaced.span.start + offset, misplaced.span.stop + offset⟩, .error,
            some misplaced.fault.code⟩) := by
  have settles := settles_read tokenized target offset
  exact ⟨settles.ok_iff, settles.error_iff⟩

/-- Two bindings, in base sixteen with the name of a type and in base ten, and a comma behind
them. -/
theorem read_by_grammar_bindings :
    tokenize "binding = 0x1F_u64, method_num = 7,".toList = .ok
      [⟨⟨.ident, "binding"⟩, 0, 7⟩, ⟨⟨.punct, "="⟩, 8, 9⟩, ⟨⟨.int, "0x1F_u64"⟩, 10, 18⟩,
        ⟨⟨.punct, ","⟩, 18, 19⟩, ⟨⟨.ident, "method_num"⟩, 20, 30⟩, ⟨⟨.punct, "="⟩, 31, 32⟩,
        ⟨⟨.int, "7"⟩, 33, 34⟩, ⟨⟨.punct, ","⟩, 34, 35⟩] ∧
    read "binding = 0x1F_u64, method_num = 7,".toList .method 12 = .ok ⟨.method,
      [⟨.binding (.number ⟨31, by decide⟩), some ⟨12, 30⟩⟩,
        ⟨.binding (.number ⟨7, by decide⟩), some ⟨32, 46⟩⟩]⟩ := by
  have hexadecimal : Text.IntegerLiteral "0x1F_u64".toList 31 :=
    ⟨['0', 'x', '1', 'F', '_'], ['u', '6', '4'], rfl, .inr (by decide),
      .marked .hexadecimal (Text.spells_iff.mpr ⟨by decide, by decide⟩)⟩
  have decimal : Text.IntegerLiteral "7".toList 7 :=
    ⟨['7'], [], rfl, .inl rfl, .decimal (Text.spells_iff.mpr ⟨by decide, by decide⟩) (by decide)⟩
  have first : Entry.Sets .method
      ⟨⟨⟨.ident, "binding"⟩, 0, 7⟩, ⟨⟨.punct, "="⟩, 8, 9⟩, none, ⟨⟨.int, "0x1F_u64"⟩, 10, 18⟩⟩
      (.binding (.number ⟨31, by decide⟩)) :=
    ⟨rfl, rfl, .binding, .method, by simp [Unsigned], .binding rfl hexadecimal⟩
  have second : Entry.Sets .method
      ⟨⟨⟨.ident, "method_num"⟩, 20, 30⟩, ⟨⟨.punct, "="⟩, 31, 32⟩, none, ⟨⟨.int, "7"⟩, 33, 34⟩⟩
      (.binding (.number ⟨7, by decide⟩)) :=
    ⟨rfl, rfl, .binding, .number, by simp [Unsigned], .binding rfl decimal⟩
  have comma (start stop : Nat) : (⟨⟨.punct, ","⟩, start, stop⟩ : Token).isPunct "," := rfl
  have lists := Lists.next first (comma 18 19) (.next second (comma 34 35) .empty)
  exact ⟨rfl, ((read_by_grammar rfl .method 12).1 _).mpr ⟨_, lists, rfl⟩⟩

/-- A minus sign in front of a codec is read as if it were not there. -/
theorem read_signed_codec : read "codec = -\"dag-cbor\"".toList .state 0 =
    .ok ⟨.state, [⟨.codec .dagCbor, some ⟨0, 19⟩⟩]⟩ := by
  rfl

end ActorGlue.Annotation
