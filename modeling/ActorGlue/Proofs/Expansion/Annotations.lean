import ActorGlue.Proofs.Expansion.CutItem

/-!
# Reading annotations

What an annotation sets depends on the lexemes of its text only. Its faults are no faults of the
grammar, and their places lie in its text. The text between the delimiters of an attribute can
always be split into tokens.
-/

namespace ActorGlue

open Parse

/-- The fault is one of the grammar. -/
def Code.isSyntax (code : Code) : Bool :=
  code.catalog = "SyntaxErrorKind"

/-- The place lies in a text of the given size. -/
structure Place.Fits (size : Nat) (place : Place) : Prop where
  lower : 0 ≤ place.start
  order : place.start ≤ place.stop
  upper : place.stop ≤ size

/-- Two messages that say the same about two texts. They are no complaints of the grammar, and
their places lie in the texts. -/
structure Leaf.Agrees (size size' : Nat) (leaf leaf' : Leaf) : Prop where
  message : leaf.message = leaf'.message
  severity : leaf.severity = leaf'.severity
  code : leaf.code = leaf'.code
  lawful : ∀ code, leaf.code = some code → code.isSyntax = false
  places : Option.Rel (fun place place' => place.Fits size ∧ place'.Fits size') leaf.place leaf'.place

/-- Two diagnostics that agree message by message. -/
def Diagnostic.Agrees (size size' : Nat) (diagnostic diagnostic' : Diagnostic) : Prop :=
  List.Forall₂ (Leaf.Agrees size size') diagnostic.leaves diagnostic'.leaves

/-- Two failures that are diagnostics and agree. -/
def Failure.Agrees (size size' : Nat) : Failure → Failure → Prop
  | .reported diagnostic, .reported diagnostic' => diagnostic.Agrees size size' diagnostic'
  | _, _ => False

/-- Two results: both are given and related, or both fail in related ways. -/
inductive Agree {ε ε' α β : Type} (Fails : ε → ε' → Prop) (Same : α → β → Prop) :
    Except ε α → Except ε' β → Prop where
  | ok {value : α} {value' : β} (same : Same value value') : Agree Fails Same (.ok value) (.ok value')
  | error {failure : ε} {failure' : ε'} (fails : Fails failure failure') :
      Agree Fails Same (.error failure) (.error failure')

variable {size' start low steps start' : Nat} {fault : Fault} {literal lexeme : Lexeme}

namespace Agree

variable {ε ε' δ δ' α β γ γ' : Type} {Fails : ε → ε' → Prop} {Same : α → β → Prop}
  {result : Except ε α} {result' : Except ε' β} {Next : γ → γ' → Prop}

theorem bind {next : α → Except ε γ} {next' : β → Except ε' γ'}
    (first : Agree Fails Same result result')
    (rest : ∀ value value', Same value value' → Agree Fails Next (next value) (next' value')) :
    Agree Fails Next (result >>= next) (result' >>= next') := by
  cases first with
  | ok same => exact rest _ _ same
  | error fails => exact .error fails

theorem map {f : α → γ} {g : β → γ'} (first : Agree Fails Same result result')
    (rest : ∀ value value', Same value value' → Next (f value) (g value')) :
    Agree Fails Next (result.map f) (result'.map g) := by
  cases first with
  | ok same => exact .ok (rest _ _ same)
  | error fails => exact .error fails

theorem mapError {Other : δ → δ' → Prop} {f : ε → δ} {g : ε' → δ'}
    (first : Agree Fails Same result result')
    (rest : ∀ failure failure', Fails failure failure' → Other (f failure) (g failure')) :
    Agree Other Same (result.mapError f) (result'.mapError g) := by
  cases first with
  | ok same => exact .ok same
  | error fails => exact .error (rest _ _ fails)

theorem reported {size : Nat} {result : Except Diagnostic α} {result' : Except Diagnostic β}
    (first : Agree (Diagnostic.Agrees size size') Same result result') :
    Agree (Failure.Agrees size size') Same (result.mapError .reported)
      (result'.mapError .reported) :=
  first.mapError fun _ _ fails => fails

end Agree

theorem Diagnostic.agrees_ofFault {size : Nat} {place place' : Place}
    (lawful : fault.code.isSyntax = false) (fits : place.Fits size) (fits' : place'.Fits size') :
    (Diagnostic.ofFault fault place).Agrees size size' (.ofFault fault place') := by
  refine .cons ⟨rfl, rfl, rfl, ?_, .some ⟨fits, fits'⟩⟩ .nil
  rintro code ⟨⟩
  exact lawful

namespace Annotation

variable {tokens tokens' : List Token} {target : Target} {key : Key} {size low' : Nat}

section Readers

/-- What is read of a value once its literal is found. -/
def readLiteral (key : Key) (start : Nat) (literal : Token) (rest : List Token) :
    Except Misplaced Read :=
  match readSetting literal.toLexeme key with
  | .ok setting => .ok ⟨setting, ⟨start, literal.stop⟩, rest⟩
  | .error fault => .error ⟨fault, ⟨start, literal.stop⟩⟩

theorem readValue_single (start : Nat) (stop : Span) (value : Token) :
    readValue key start stop [value] = readLiteral key start value [] := rfl

theorem readValue_cons (start : Nat) (stop : Span) (value next : Token) (rest : List Token) :
    readValue key start stop (value :: next :: rest) =
      if value.isPunct "-" then
        if key = .binding then .error ⟨.bindingValue, ⟨start, next.stop⟩⟩
        else readLiteral key start next rest
      else readLiteral key start value (next :: rest) := rfl

/-- Reads what stands behind an entry. -/
def readBehind (target : Target) (stop : Span) (steps : Nat) (read : Read) :
    Except Misplaced (List (Setting × Span)) :=
  match read.rest with
  | [] => .ok [(read.setting, read.span)]
  | comma :: rest =>
    if comma.isPunct "," then
      (readDirectives target stop steps rest).map ((read.setting, read.span) :: ·)
    else .error ⟨.expected "',' between attributes", comma.span⟩

theorem readDirectives_cons {stop : Span} {name : Token} {rest : List Token} (steps : Nat) :
    readDirectives target stop (steps + 1) (name :: rest) =
      readDirective target stop (name :: rest) >>= readBehind target stop steps := by
  rw [readDirectives]
  cases readDirective target stop (name :: rest) with
  | error misplaced => rfl
  | ok read =>
    obtain ⟨setting, span, left⟩ := read
    cases left with
    | nil => rfl
    | cons comma rest =>
      show (if _ then _ else _) = if _ then _ else _
      split_ifs
      · cases readDirectives target stop steps rest <;> rfl
      · rfl

theorem read_of_tokenize {text : List Char} (tokenized : tokenize text = .ok tokens)
    (offset : Int) : read text target offset =
      ((readDirectives target ⟨text.length, text.length⟩ tokens.length tokens).map fun settings =>
        ⟨target, settings.map fun found =>
          ⟨found.1, some (found.2.toPlace.shift offset)⟩⟩).mapError
        fun misplaced => .reported (.ofFault misplaced.fault (misplaced.span.toPlace.shift offset)) := by
  simp only [read, tokenized]
  cases readDirectives target ⟨text.length, text.length⟩ tokens.length tokens <;> rfl

end Readers

section Lexemes

/-! ## Annotations with the same lexemes

Two texts are read side by side, so that what is said of one reader holds in both of them.
-/

theorem numberValue_fault (h : numberValue literal = .error fault) :
    fault.code.isSyntax = false := by
  unfold numberValue at h
  split at h
  · split at h
    · split at h
      · cases h
      · cases h
        rfl
    · cases h
      rfl
  · cases h
    rfl

theorem readSetting_fault (h : readSetting literal key = .error fault) :
    fault.code.isSyntax = false := by
  cases key with
  | codec | dispatch =>
    rw [readSetting] at h
    split at h
    · cases h
      rfl
    · split at h <;> cases h
      rfl
  | binding =>
    rw [readSetting] at h
    cases found : numberValue literal with
    | ok number =>
      rw [found] at h
      cases h
    | error fault' =>
      rw [found] at h
      cases h
      exact numberValue_fault found

/-- Tokens with the same lexemes, in texts of the given sizes behind the given places. -/
inductive Matched (size size' : Nat) : Nat → Nat → List Token → List Token → Prop where
  | nil {low low' : Nat} (le : low ≤ size) (le' : low' ≤ size') : Matched size size' low low' [] []
  | cons {low low' : Nat} {token token' : Token} {rest rest' : List Token}
      (same : token.toLexeme = token'.toLexeme) (le : low ≤ token.start)
      (le' : low' ≤ token'.start) (lt : token.start < token.stop) (lt' : token'.start < token'.stop)
      (behind : Matched size size' token.stop token'.stop rest rest') :
      Matched size size' low low' (token :: rest) (token' :: rest')

theorem matched_of_spaced (same : tokens.map (·.toLexeme) = tokens'.map (·.toLexeme))
    (spaced : Spaced low tokens size) (spaced' : Spaced low' tokens' size') :
    Matched size size' low low' tokens tokens' := by
  induction tokens generalizing low low' tokens' with
  | nil =>
    obtain rfl : tokens' = [] := by simpa using same.symm
    exact .nil spaced spaced'
  | cons token rest ih =>
    obtain ⟨token', rest', rfl, first, rests⟩ := List.map_eq_cons_iff.mp same.symm
    obtain ⟨le, lt, spaced⟩ := spaced
    obtain ⟨le', lt', spaced'⟩ := spaced'
    exact .cons first.symm le le' lt lt' (ih rests.symm spaced spaced')

theorem Matched.le_size (matched : Matched size size' low low' tokens tokens') :
    low ≤ size ∧ low' ≤ size' := by
  induction matched with
  | nil le le' => exact ⟨le, le'⟩
  | cons => omega

/-- The same fault, which is not one of the grammar, at places that lie in the two texts. -/
structure Misplaced.Agrees (size size' : Nat) (misplaced misplaced' : Misplaced) : Prop where
  fault : misplaced.fault = misplaced'.fault
  code : misplaced.fault.code.isSyntax = false
  order : misplaced.span.start ≤ misplaced.span.stop ∧ misplaced'.span.start ≤ misplaced'.span.stop
  within : misplaced.span.stop ≤ size ∧ misplaced'.span.stop ≤ size'

/-- Directives that set the same, with tokens behind them that match. -/
structure Read.Agrees (size size' : Nat) (read read' : Read) : Prop where
  setting : read.setting = read'.setting
  rest : ∃ low low', Matched size size' low low' read.rest read'.rest

theorem readLiteral_agree {literal literal' : Token} {rest rest' : List Token}
    (same : literal.toLexeme = literal'.toLexeme) (le : start ≤ literal.stop)
    (le' : start' ≤ literal'.stop)
    (behind : Matched size size' literal.stop literal'.stop rest rest') :
    Agree (Misplaced.Agrees size size') (Read.Agrees size size')
      (readLiteral key start literal rest) (readLiteral key start' literal' rest') := by
  unfold readLiteral
  rw [same]
  cases found : readSetting literal'.toLexeme key with
  | ok setting => exact .ok ⟨rfl, _, _, behind⟩
  | error fault => exact .error ⟨rfl, readSetting_fault found, ⟨le, le'⟩, behind.le_size⟩

theorem readValue_agree (before : start ≤ low) (before' : start' ≤ low')
    (matched : Matched size size' low low' tokens tokens') :
    Agree (Misplaced.Agrees size size') (Read.Agrees size size')
      (readValue key start ⟨size, size⟩ tokens) (readValue key start' ⟨size', size'⟩ tokens') := by
  cases matched with
  | nil => exact .error ⟨rfl, rfl, ⟨le_rfl, le_rfl⟩, le_rfl, le_rfl⟩
  | @cons _ _ value value' rest rest' same le le' lt lt' behind =>
    have first : Agree (Misplaced.Agrees size size') (Read.Agrees size size')
        (readLiteral key start value rest) (readLiteral key start' value' rest') :=
      readLiteral_agree same (by omega) (by omega) behind
    cases behind with
    | nil => exact first
    | cons next le₂ le₂' lt₂ lt₂' behind =>
      have minus : value.isPunct "-" = value'.isPunct "-" := congrArg (Lexeme.isPunct · "-") same
      rw [readValue_cons, readValue_cons, minus]
      split_ifs
      · exact .error ⟨rfl, rfl, ⟨by dsimp only; omega, by dsimp only; omega⟩, behind.le_size⟩
      · exact readLiteral_agree next (by omega) (by omega) behind
      · exact first

theorem readDirective_agree (matched : Matched size size' low low' tokens tokens') :
    Agree (Misplaced.Agrees size size') (Read.Agrees size size')
      (readDirective target ⟨size, size⟩ tokens) (readDirective target ⟨size', size'⟩ tokens') := by
  cases matched with
  | nil => exact .error ⟨rfl, rfl, ⟨le_rfl, le_rfl⟩, le_rfl, le_rfl⟩
  | @cons _ _ name name' rest rest' same _ _ lt lt' behind =>
    have kind : name.kind = name'.kind := congrArg Lexeme.kind same
    have text : name.text = name'.text := congrArg Lexeme.text same
    simp only [readDirective, kind, text]
    split_ifs
    · exact .error ⟨rfl, rfl, ⟨lt.le, lt'.le⟩, behind.le_size⟩
    · split
      · exact .error ⟨rfl, rfl, ⟨lt.le, lt'.le⟩, behind.le_size⟩
      · cases behind with
        | nil => exact .error ⟨rfl, rfl, ⟨le_rfl, le_rfl⟩, le_rfl, le_rfl⟩
        | @cons _ _ equals equals' rest rest' same _ _ lt₂ lt₂' behind =>
          have mark : equals.isPunct "=" = equals'.isPunct "=" :=
            congrArg (Lexeme.isPunct · "=") same
          simp only [mark]
          split_ifs
          · exact readValue_agree (by omega) (by omega) behind
          · exact .error ⟨rfl, rfl, ⟨lt₂.le, lt₂'.le⟩, behind.le_size⟩

theorem readDirectives_agree (matched : Matched size size' low low' tokens tokens') :
    Agree (Misplaced.Agrees size size')
      (fun settings settings' => settings.map (·.1) = settings'.map (·.1))
      (readDirectives target ⟨size, size⟩ steps tokens)
      (readDirectives target ⟨size', size'⟩ steps tokens') := by
  induction steps generalizing tokens tokens' low low' with
  | zero => cases matched <;> exact .ok rfl
  | succ steps ih =>
    have directive : Agree (Misplaced.Agrees size size') (Read.Agrees size size')
        (readDirective target ⟨size, size⟩ tokens) (readDirective target ⟨size', size'⟩ tokens') :=
      readDirective_agree matched
    cases matched with
    | nil => exact .ok rfl
    | cons =>
      rw [readDirectives_cons, readDirectives_cons]
      apply directive.bind
      rintro ⟨setting, span, left⟩ ⟨setting', span', left'⟩ ⟨rfl, low, low', matched⟩
      dsimp only at matched
      cases matched with
      | nil => exact .ok rfl
      | @cons _ _ comma comma' rest rest' same _ _ lt lt' behind =>
        have mark : comma.isPunct "," = comma'.isPunct "," := congrArg (Lexeme.isPunct · ",") same
        simp only [readBehind, mark]
        split_ifs
        · exact (ih behind).map fun _ _ others => congrArg (setting :: ·) others
        · exact .error ⟨rfl, rfl, ⟨lt.le, lt'.le⟩, behind.le_size⟩

end Lexemes

/-- Two annotations that set the same. -/
structure Same (marks marks' : Annotation) : Prop where
  target : marks.target = marks'.target
  settings : marks.directives.map (·.setting) = marks'.directives.map (·.setting)

/-- Annotations whose texts have the same lexemes set the same or have the same fault. -/
theorem read_agree {text text' : List Char} {offset offset' size : Nat} (target : Target)
    (h : tokenize text = .ok tokens) (h' : tokenize text' = .ok tokens')
    (same : tokens.map (·.toLexeme) = tokens'.map (·.toLexeme)) (fits : offset + text.length ≤ size)
    (fits' : offset' + text'.length ≤ size') :
    Agree (Failure.Agrees size size') Same (read text target offset) (read text' target offset') := by
  have length : tokens.length = tokens'.length := by simpa using congrArg List.length same
  have matched := matched_of_spaced same (spaced_of_tokenize h) (spaced_of_tokenize h')
  rw [read_of_tokenize h, read_of_tokenize h', length]
  apply ((readDirectives_agree matched).map ?_).mapError ?_
  · intro settings settings' same
    refine ⟨rfl, ?_⟩
    simp only [List.map_map]
    exact same
  · rintro misplaced misplaced' ⟨fault, lawful, ⟨order, order'⟩, within, within'⟩
    rw [← fault]
    refine Diagnostic.agrees_ofFault lawful ⟨?_, ?_, ?_⟩ ⟨?_, ?_, ?_⟩ <;>
      simp only [Span.toPlace, Place.shift] <;> omega

end Annotation

theorem Lexeme.length_opener (opens : lexeme.closer?.isSome) : lexeme.text.toList.length = 1 := by
  unfold Lexeme.closer? Lexeme.closerOf? at opens
  split_ifs at opens with _ first second third
  · rw [first]; rfl
  · rw [second]; rfl
  · rw [third]; rfl
  all_goals cases opens

theorem Lexeme.length_closer (closes : lexeme.isCloser) : lexeme.text.toList.length = 1 := by
  simp only [Lexeme.isCloser, Lexeme.isPunctOf, List.contains_eq_mem, List.mem_cons,
    List.not_mem_nil, or_false, Bool.and_eq_true, decide_eq_true_eq] at closes
  obtain ⟨-, same | same | same⟩ := closes <;> rw [same] <;> rfl

/-- Tokens of a source stand for its lexemes, one by one, and the place of a stretch of them begins
with the first and ends with the last. -/
theorem Source.tokens_around {source : Source} {outer inside rest : List Lexeme}
    {first last : Lexeme} (whole : source.lexemes = outer ++ first :: (inside ++ last :: rest)) :
    ∃ before opening middle closing after,
      source.tokens.toList = before ++ opening :: (middle ++ closing :: after) ∧
        opening.toLexeme = first ∧ middle.map (·.toLexeme) = inside ∧ closing.toLexeme = last ∧
        source.span ⟨inside.length + 2 + rest.length, rest.length⟩ =
          ⟨opening.start, closing.stop⟩ := by
  obtain ⟨before, _, same, -, tail⟩ := List.map_eq_append_iff.mp whole
  obtain ⟨opening, _, rfl, opens, tail⟩ := List.map_eq_cons_iff.mp tail
  obtain ⟨middle, _, rfl, rfl, behind⟩ := List.map_eq_append_iff.mp tail
  obtain ⟨closing, after, rfl, closes, rfl⟩ := List.map_eq_cons_iff.mp behind
  refine ⟨before, opening, middle, closing, after, same, opens, rfl, closes, ?_⟩
  have start : source.startAt ((middle ++ closing :: after).length + 1) = opening.start :=
    Source.startAt_of same
  have stop : source.stopAt after.length = closing.stop :=
    @Source.stopAt_of (before ++ opening :: middle) closing source after (by simp [same])
  have size : (middle ++ closing :: after).length + 1 = middle.length + 2 + after.length := by
    simp only [List.length_append, List.length_cons]
    omega
  rw [Source.span, List.length_map, List.length_map, ← size, start, stop]

/-- The text between the delimiters of a group has the lexemes between them for tokens. -/
theorem Delimited.tokenized {lexemes : List Lexeme} {extent : Extent}
    (h : Delimited lexemes extent) : ∃ inside : List Lexeme, ∀ source : Source,
      Source.read source.text = .ok source → source.lexemes = lexemes →
      ∃ tokens, tokenize ((source.span extent).inside.slice source.text) = .ok tokens ∧
        tokens.map (·.toLexeme) = inside ∧ (source.span extent).inside.start +
          ((source.span extent).inside.slice source.text).length ≤ source.text.length := by
  obtain ⟨before, opener, inside, closer, after, rfl, opens, closes, rfl⟩ := h
  refine ⟨inside, fun source read same => ?_⟩
  obtain ⟨h, -⟩ := Source.read_eq_ok.mp read
  obtain ⟨front, first, middle, last, tail, tokens, rfl, rfl, rfl, span⟩ :=
    Source.tokens_around same
  rw [tokens] at h
  have firstWidth : first.stop = first.start + first.text.toList.length :=
    stop_of_tokenize h (by simp)
  have lastWidth : last.stop = last.start + last.text.toList.length :=
    stop_of_tokenize h (by simp)
  rw [Lexeme.length_opener opens] at firstWidth
  rw [Lexeme.length_closer closes] at lastWidth
  obtain ⟨found, tokenized, moved⟩ := tokenize_between (Lexeme.isBarrier_of_closer closes) h
  have place : Span.inside ⟨first.start, last.stop⟩ = ⟨first.stop, last.start⟩ := by
    simp only [Span.inside, firstWidth, lastWidth, Nat.add_sub_cancel]
  rw [span, place]
  refine ⟨found, tokenized, ?_, ?_⟩
  · rw [moved, lexemes_shift]
  · have spaced := spaced_of_tokenize h
    obtain ⟨_, -, spaced⟩ := spaced.split
    obtain ⟨-, -, spaced⟩ := spaced
    have := spaced.le_size
    obtain ⟨_, before, behind⟩ := spaced.split
    have := before.le_size
    have := behind.1
    have := behind.2.1
    have := behind.2.2.le_size
    simp only [Span.slice, List.length_drop, List.length_take]
    omega

end ActorGlue
