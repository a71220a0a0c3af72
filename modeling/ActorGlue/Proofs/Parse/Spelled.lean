import ActorGlue.Proofs.Tree.Spelling

/-!
# Reading the lexemes of a type

The lexemes that spell a type are read as that type, in front of all that a path does not go on
with. The types inside of a type are spelled by fewer lexemes than the type, so there are layers
enough for them.
-/

namespace ActorGlue

open Parse

variable {σ : Type}
variable {lexemes : List Lexeme} {arg : GenericArg σ} {word? : Option String}
  {isLength : σ → σ → String → Prop} {close word : String} {ahead : List Lexeme} {place : σ}
  {elem : Ty σ}

section Lengths

/-! ## Inner types have fewer lexemes -/

theorem length_le_intercalate {α : Type} (separator : List α) {list : List α}
    {lists : List (List α)} (member : list ∈ lists) : list.length ≤ (separator.intercalate lists).length := by
  induction lists with
  | nil => cases member
  | cons first others ih =>
    cases others with
    | nil => simp [List.mem_singleton.mp member]
    | cons next others =>
      rw [List.intercalate_cons_cons, List.length_append, List.length_append]
      rcases List.mem_cons.mp member with rfl | behind
      · omega
      · have shorter := ih behind
        omega

theorem Segment.length_lt_of_mem_args {segment : Segment σ} {ty : Ty σ}
    (member : arg ∈ segment.angleArgs) (held : arg.type? = some ty) :
    ty.lexemes.length < segment.lexemes.length := by
  have inArg : ty.lexemes.length ≤ arg.lexemes.length := by
    cases arg <;> cases held <;> simp only [GenericArg.lexemes, List.length_cons] <;> omega
  obtain ⟨place, ident, _ | ⟨spot, args⟩ | _⟩ := segment
  · cases member
  · have inArgs := length_le_intercalate [Lexeme.sign ","]
      (List.mem_map_of_mem (f := GenericArg.lexemes) member)
    simp only [Segment.lexemes, SegmentArgs.lexemes, GenericArg.lexemesAll_eq, List.length_cons,
      List.length_append]
    simp only [Segment.angleArgs] at inArgs
    omega
  · cases member

theorem TyPath.length_lt_of_mem_inner {path : TyPath σ} {ty : Ty σ} (member : ty ∈ path.inner) :
    ty.lexemes.length < path.lexemes.length := by
  obtain ⟨place, head, segments⟩ := path
  simp only [TyPath.lexemes, Segment.lexemesAll_eq, List.length_append]
  obtain self | ⟨trait, seen, rfl⟩ | ⟨segment, isSegment, arg, isArg, held⟩ :=
    TyPath.mem_inner.mp member
  · cases head <;> cases self <;> simp [PathHead.lexemes] <;> omega
  · cases head <;> cases seen
    simp only [PathHead.lexemes, Ty.lexemes, List.length_cons, List.length_append]
    omega
  · have inSegment := Segment.length_lt_of_mem_args isArg held
    have inPath := length_le_intercalate [Lexeme.sign "::"]
      (List.mem_map_of_mem (f := Segment.lexemes) isSegment)
    omega

theorem Ty.length_lt_of_mem_inner {ty next : Ty σ} (member : next ∈ ty.inner) :
    next.lexemes.length < ty.lexemes.length := by
  cases ty with
  | path found => exact TyPath.length_lt_of_mem_inner member
  | array place elem length | paren place elem =>
    obtain rfl := List.mem_singleton.mp member
    simp [Ty.lexemes]
    try omega
  | tuple place elems =>
    have member : next ∈ elems := member
    rcases elems with _ | ⟨first, _ | ⟨second, rest⟩⟩
    · cases member
    · obtain rfl := List.mem_singleton.mp member
      simp [Ty.lexemes]
    · have inTuple := length_le_intercalate [Lexeme.sign ","]
        (List.mem_map_of_mem (f := Ty.lexemes) member)
      rw [Ty.lexemes, Ty.lexemesAll_eq]
      · simp only [List.length_cons, List.length_append]
        omega
      · simp
  | _ => cases member

end Lengths

section Openings

/-! ## How the lexemes of a type begin -/

/-- Lexemes that begin with a mark out of some, or with a word and behind it nothing or a mark of a
path. -/
inductive Opens (marks : List String) (word? : Option String) : List Lexeme → Prop where
  | mark {text : String} {tail : List Lexeme} (opens : text ∈ marks) :
      Opens marks word? (.sign text :: tail)
  | word {word : String} {tail : List Lexeme} (first : word? = some word) (isWord : IsWord word)
      (goesOn : ∀ lexeme ∈ tail.head?, lexeme = .sign "<" ∨ lexeme = .sign "::") :
      Opens marks word? (.word word :: tail)

/-- The marks that paths begin with. -/
def pathMarks : List String := ["<", "::"]

/-- The marks that types begin with. -/
def typeMarks : List String := "(" :: "[" :: pathMarks

theorem Opens.type (opens : Opens pathMarks word? lexemes) : Opens typeMarks word? lexemes := by
  cases opens with
  | mark opens => exact .mark (by simp [typeMarks, opens])
  | word first isWord goesOn => exact .word first isWord goesOn

/-- Segments begin with the word of the first one. -/
theorem Segment.intercalate_cons (place : σ) (ident : String) (args : SegmentArgs σ)
    (others : List (Segment σ)) : ∃ more, [Lexeme.sign "::"].intercalate
      ((Segment.mk place ident args :: others).map Segment.lexemes) =
        .word ident :: (args.lexemes ++ more) ∧ ∀ lexeme ∈ more.head?, lexeme = .sign "::" := by
  cases others with
  | nil => exact ⟨[], by simp [Segment.lexemes]⟩
  | cons next others =>
    refine ⟨_, by rw [List.map_cons, List.map_cons, List.intercalate_cons_cons, Segment.lexemes,
      List.append_assoc, List.cons_append], ?_⟩
    simp

theorem TyPath.opens {path : TyPath σ} (decodable : (Ty.path path).Decodable)
    (regular : (Ty.path path).Regular isLength) : Opens pathMarks path.firstWord? path.lexemes := by
  cases decodable with
  | @path place head segments headed inside =>
    obtain ⟨some, -, words⟩ := regular
    obtain ⟨⟨spot, ident, args⟩, others, rfl⟩ := List.exists_cons_of_ne_nil some
    rw [TyPath.lexemes]
    cases headed with
    | rooted | self _ | selfAs _ => exact .mark (by decide)
    | relative =>
      obtain ⟨more, same, colons⟩ := Segment.intercalate_cons spot ident args others
      rw [PathHead.lexemes, List.nil_append, Segment.lexemesAll_eq, same]
      refine .word rfl (words _ List.mem_cons_self).1 ?_
      cases inside _ List.mem_cons_self with
      | plain => exact fun lexeme member => .inr (colons lexeme member)
      | angle _ => simp [SegmentArgs.lexemes]

theorem Ty.opens {ty : Ty σ} (decodable : ty.Decodable) (regular : ty.Regular isLength) :
    Opens typeMarks ty.firstWord? ty.lexemes := by
  cases decodable with
  | array inside | paren inside => exact .mark (by decide)
  | @tuple place elems inside =>
    rcases elems with _ | ⟨first, _ | ⟨second, rest⟩⟩
    · exact .mark (by decide)
    · exact .mark (by decide)
    · rw [Ty.lexemes]
      · exact .mark (by decide)
      · simp
  | @path place head segments headed inside =>
    exact (TyPath.opens (.path headed inside) regular).type

/-- A type begins with no mark that closes something. -/
theorem Opens.any_is (opens : Opens typeMarks word? lexemes) (closes : close ∈ [")", ">"])
    (rest : List Lexeme) : (lexemes ++ rest)[0]?.any (·.is close) = false := by
  cases opens with
  | mark member =>
    simp only [typeMarks, pathMarks, List.mem_cons, List.not_mem_nil, or_false] at member closes
    rcases member with rfl | rfl | rfl | rfl <;> rcases closes with rfl | rfl <;> simp [Lexeme.is]
  | word first isWord goesOn =>
    have other : close.toList.head?.any Scan.isWordStart = false := by
      simp only [List.mem_cons, List.not_mem_nil, or_false] at closes
      rcases closes with rfl | rfl <;> decide
    exact (Scan.isScanned_of_isToken isWord).is_of_scanned other

end Openings

namespace Parse

section Reading

/-! ## Items with commas between them -/

variable {α β γ : Type} {rest : List Lexeme}

/-- In front of the rest, the parser reads the lexemes as a value that looks so. -/
def ReadsAs (parser : Parser α) (view : α → β) (lexemes rest : List Lexeme) (value : β) : Prop :=
  ∃ found, parser (lexemes ++ rest) = .ok (found, rest) ∧ view found = value

/-- What the parser reads need not be named to be looked at. -/
theorem readsAs_of_map {parser : Parser α} {view : α → β} {value : β}
    (read : (parser (lexemes ++ rest)).map (Prod.map view id) = .ok (value, rest)) :
    ReadsAs parser view lexemes rest value := by
  cases found : parser (lexemes ++ rest) with
  | error complaint =>
    rw [found] at read
    cases read
  | ok result =>
    rw [found] at read
    obtain ⟨same, rfl⟩ := Prod.mk.inj (Except.ok.inj read)
    exact ⟨result.1, found, same⟩

theorem separatedStep_of_item {item : Parser α} {left : List Lexeme} {found : α}
    (opens : ahead[0]?.any (·.is close) = false) (read : item ahead = .ok (found, left)) :
    separatedStep "," (at? close) item ahead =
      if left[0]?.any (·.is ",") then .ok (([found], true), left.drop 1)
      else .ok (([found], false), left) := by
  rw [separatedStep, at?_bind, opens]
  simp only [Bool.false_eq_true, if_false]
  rw [bind_of_ok read, eat_bind]
  rfl

/-- Items that are each read in front of a comma and of what closes them are read together. -/
theorem separated_readsAs {item : Parser α} [Shrinks item] {view : α → β} {look : γ → β}
    {spell : γ → List Lexeme} (other : close ≠ ",") {values : List γ}
    (opens : ∀ value ∈ values, ∀ rest, (spell value ++ rest)[0]?.any (·.is close) = false)
    (each : ∀ value ∈ values, ∀ mark ∈ [",", close], ∀ rest,
      ReadsAs item view (spell value) (.sign mark :: rest) (look value)) (rest : List Lexeme) :
    ReadsAs (separated "," (at? close) item) (List.map view)
      ([Lexeme.sign ","].intercalate (values.map spell)) (.sign close :: rest)
      (values.map look) := by
  suffices repeats : ∃ found, Repeats (separatedStep "," (at? close) item)
      ([Lexeme.sign ","].intercalate (values.map spell) ++ .sign close :: rest) found
      (.sign close :: rest) ∧ found.map view = values.map look by
    obtain ⟨found, steps, same⟩ := repeats
    exact ⟨found, many_eq_ok_iff.mpr steps, same⟩
  induction values with
  | nil =>
    have done : separatedStep "," (at? close) item (.sign close :: rest) =
        .ok (([], false), .sign close :: rest) := by
      rw [separatedStep, at?_bind]
      simp [Lexeme.is]
      rfl
    exact ⟨[], .last done, rfl⟩
  | cons value values ih =>
    obtain ⟨opensHere, opensThere⟩ := List.forall_mem_cons.mp opens
    obtain ⟨here, there⟩ := List.forall_mem_cons.mp each
    cases values with
    | nil =>
      obtain ⟨found, read, same⟩ := here close (by simp) rest
      have taken := separatedStep_of_item (opensHere _) read
      have noComma : (Lexeme.sign close).is "," = false := by simp [Lexeme.is, other]
      rw [if_neg (by simp [noComma])] at taken
      rw [List.map_singleton, List.intercalate_singleton]
      exact ⟨[found], .last taken, by simp [same]⟩
    | cons next others =>
      obtain ⟨more, steps, looks⟩ := ih opensThere there
      obtain ⟨found, read, same⟩ := here "," (by simp)
        ([Lexeme.sign ","].intercalate ((next :: others).map spell) ++ .sign close :: rest)
      have taken := separatedStep_of_item (opensHere _) read
      rw [if_pos (by simp [Lexeme.is])] at taken
      rw [List.map_cons, List.map_cons, List.intercalate_cons_cons, List.append_assoc,
        List.append_assoc]
      exact ⟨[found] ++ more, .next taken (by simp; omega) steps, by simp [same, looks]⟩

end Reading

section Paths

/-! ## Paths -/

variable {g : Grammar} {rest : List Lexeme}

/-- The grammar reads the lexemes of a type as the type and, if it is a path, as the path. A path
may begin with any word, unlike a type. -/
structure Rereads (g : Grammar) (ty : Ty σ) : Prop where
  type : ty.Begins → ∀ sum rest, endsPath rest →
    ReadsAs (g.ty sum) Ty.shape ty.lexemes rest ty.shape
  path : ∀ found, ty = .path found → ∀ rest, endsPath rest →
    ReadsAs g.path (TyPath.map fun _ => ()) found.lexemes rest (found.map fun _ => ())

theorem endsPath_sign {text : String} (stops : text ∈ [",", ">", ")", ";"])
    (rest : List Lexeme) : endsPath (.sign text :: rest) := by
  simp only [List.mem_cons, List.not_mem_nil, or_false] at stops
  rcases stops with rfl | rfl | rfl | rfl <;> simp [endsPath, Lexeme.is]

/-- What begins like a type and not like a constant is read as a type, if no name is bound or
constrained. -/
theorem angleArg_of_opens (opens : Opens typeMarks word? lexemes)
    (plain : ∀ word ∈ word?, word ∉ truthWords)
    (free : ∀ text ∈ ["=", ":"], rest[0]?.any (·.is text) = false) :
    angleArg g (lexemes ++ rest) = (do
      let ty ← g.ty true
      return .type ty.place ty : Parser (GenericArg Extent)) (lexemes ++ rest) := by
  rw [angleArg, mark_bind, peek_bind]
  cases opens with
  | mark member =>
    simp only [typeMarks, pathMarks, List.mem_cons, List.not_mem_nil, or_false] at member
    rcases member with rfl | rfl | rfl | rfl <;>
      simp [startsConst, Lexeme.isPunctOf, Lexeme.isIdent] <;> rfl
  | @word word tail first isWord goesOn =>
    have plain := plain word first
    have after : ∀ text ∈ ["=", ":"], (tail ++ rest)[0]?.any (·.is text) = false := by
      cases tail with
      | nil => exact free
      | cons next tail =>
        intro text member
        simp only [List.mem_cons, List.not_mem_nil, or_false] at member
        rcases goesOn next rfl with rfl | rfl <;> rcases member with rfl | rfl <;>
          simp [Lexeme.is]
    simp only [truthWords, List.mem_cons, List.not_mem_nil, or_false, not_or] at plain
    simp only [List.cons_append, List.getElem?_cons_zero]
    simp only [startsConst, Lexeme.isPunctOf, Lexeme.isIdent, plain]
    simp [at?_bind, after "=" (by simp), after ":" (by simp)]

/-- The type is read by the grammar, and it begins as types do. -/
structure Recognized (g : Grammar) (ty : Ty σ) : Prop where
  rereads : Rereads g ty
  opens : Opens typeMarks ty.firstWord? ty.lexemes

theorem angleArg_readsAs (decodable : arg.Decodable) (regular : arg.Regular)
    (inner : ∀ ty ∈ arg.type?, Recognized g ty) {mark : String} (stops : mark ∈ [",", ">"])
    (rest : List Lexeme) : ReadsAs (angleArg g) (GenericArg.map fun _ => ()) arg.lexemes
      (.sign mark :: rest) (arg.map fun _ => ()) := by
  have ends : endsPath (.sign mark :: rest) :=
    endsPath_sign (List.mem_append_left [")", ";"] stops) rest
  cases decodable with
  | @type place ty inside =>
    obtain ⟨begins, plain⟩ := regular
    obtain ⟨rereads, opens⟩ := inner ty rfl
    obtain ⟨found, read, same⟩ := rereads.type begins true _ ends
    have free : ∀ text ∈ ["=", ":"],
        (Lexeme.sign mark :: rest)[0]?.any (·.is text) = false := by
      simp only [List.mem_cons, List.not_mem_nil, or_false] at stops
      rcases stops with rfl | rfl <;> simp [Lexeme.is]
    apply readsAs_of_map
    rw [GenericArg.lexemes, angleArg_of_opens opens plain free, bind_of_ok read]
    exact congrArg (fun shape => Except.ok (GenericArg.type () shape, _)) same
  | @binding place name ty inside =>
    obtain ⟨isWord, plain, begins⟩ := regular
    obtain ⟨found, read, same⟩ := (inner ty rfl).rereads.type begins true _ ends
    simp only [truthWords, List.mem_cons, List.not_mem_nil, or_false, not_or] at plain
    apply readsAs_of_map
    rw [angleArg, mark_bind, peek_bind, GenericArg.lexemes]
    simp [startsConst, Lexeme.isPunctOf, Lexeme.isIdent, plain, at?_bind, Lexeme.is, skip_bind]
    rw [bind_of_ok read]
    exact congrArg (fun shape => Except.ok (GenericArg.binding () name shape, _)) same

theorem angleArgs_readsAs [g.Shrink] {args : List (GenericArg σ)}
    (decodable : ∀ arg ∈ args, arg.Decodable) (regular : ∀ arg ∈ args, arg.Regular)
    (inner : ∀ arg ∈ args, ∀ ty ∈ arg.type?, Recognized g ty) (rest : List Lexeme) :
    ReadsAs (angleArgs g) (SegmentArgs.map fun _ => ()) (SegmentArgs.angle place args).lexemes rest
      ((SegmentArgs.angle place args).map fun _ => ()) := by
  have opens : ∀ arg ∈ args, ∀ rest, (arg.lexemes ++ rest)[0]?.any (·.is ">") = false := by
    intro arg member rest
    cases decodable arg member with
    | type inside => exact (inner _ member _ rfl).opens.any_is (by decide) rest
    | binding inside =>
      have isWord := (regular _ member).1
      exact (Scan.isScanned_of_isToken isWord).is_of_scanned (by decide)
  obtain ⟨found, read, same⟩ := separated_readsAs (by decide : ">" ≠ ",") opens
    (fun arg member mark stops rest => angleArg_readsAs (decodable arg member)
      (regular arg member) (inner arg member) stops rest) rest
  apply readsAs_of_map
  rw [angleArgs, mark_bind, SegmentArgs.lexemes, GenericArg.lexemesAll_eq, List.cons_append,
    List.append_assoc, expect_bind, if_pos (by simp [Lexeme.is]), List.drop_one, List.tail_cons]
  refine (congrArg _ (bind_of_ok read)).trans ?_
  rw [expect_bind, if_pos (by simp [Lexeme.is])]
  change Except.ok (SegmentArgs.angle () (GenericArg.mapAll _ found), rest) = _
  rw [GenericArg.mapAll_eq_map, same, SegmentArgs.map, GenericArg.mapAll_eq_map]

/-- Nothing goes on with a segment but another one. -/
def EndsSegment (ahead : List Lexeme) : Prop :=
  (ahead[0]?.any (·.is "::") && ahead[1]?.any (·.is "<")) = false ∧
    ahead[0]?.any (·.is "<") = false ∧ ahead[0]?.any (·.is "(") = false

theorem endsSegment_of_endsPath (ends : endsPath rest) : EndsSegment rest := by
  obtain ⟨colons, angle, round, -, -⟩ := endsPath_iff.mp ends
  exact ⟨by simp [colons], angle, round⟩

theorem endsSegment_colons (isWord : IsWord word) (rest : List Lexeme) :
    EndsSegment (.sign "::" :: .word word :: rest) := by
  have noArgs : (Lexeme.word word).is "<" = false :=
    (Scan.isScanned_of_isToken isWord).is_of_scanned (by decide)
  exact ⟨by simp [noArgs], by simp [Lexeme.is], by simp [Lexeme.is]⟩

theorem segment_readsAs [g.Shrink] {segment : Segment σ} (decodable : segment.Decodable)
    (regular : segment.Regular)
    (inner : ∀ arg ∈ segment.angleArgs, ∀ ty ∈ arg.type?, Recognized g ty)
    (ends : EndsSegment rest) : ReadsAs (Parse.segment g) (Segment.map fun _ => ())
      segment.lexemes rest (segment.map fun _ => ()) := by
  cases decodable with
  | @plain place ident =>
    exact ⟨_, segment_of_word g ident ends.1 ends.2.1 ends.2.2, rfl⟩
  | @angle place spot ident args inside =>
    obtain ⟨found, read, same⟩ := @angleArgs_readsAs σ spot g _ args inside regular.2 inner rest
    have named : expectIdent "a path segment" (.word ident ::
        ((SegmentArgs.angle spot args).lexemes ++ rest)) =
        .ok (ident, (SegmentArgs.angle spot args).lexemes ++ rest) := rfl
    have plain : turbofish ((SegmentArgs.angle spot args).lexemes ++ rest) =
        .ok ((), (SegmentArgs.angle spot args).lexemes ++ rest) := by
      rw [turbofish, at?_bind, at?_bind, SegmentArgs.lexemes]
      simp [Lexeme.is]
      rfl
    have angled : segmentArgs g ident ((SegmentArgs.angle spot args).lexemes ++ rest) =
        .ok (found, rest) := by
      rw [segmentArgs, at?_bind, at?_bind, ← read, SegmentArgs.lexemes]
      simp [Lexeme.is]
    apply readsAs_of_map
    rw [Parse.segment, mark_bind, Segment.lexemes, List.cons_append, bind_of_ok named,
      bind_of_ok plain, bind_of_ok angled]
    exact congrArg (fun args => Except.ok (Segment.mk () ident args, rest)) same

theorem segmentStep_last {value : Segment Extent} (read : segment g ahead = .ok (value, rest))
    (ends : endsPath rest) : segmentStep g ahead = .ok (([value], false), rest) := by
  rw [segmentStep, bind_of_ok read, at?_bind, (endsPath_iff.mp ends).1]
  rfl

theorem segmentStep_next {value : Segment Extent}
    (read : segment g ahead = .ok (value, .sign "::" :: .word word :: rest)) :
    segmentStep g ahead = .ok (([value], true), .word word :: rest) := by
  rw [segmentStep, bind_of_ok read, at?_bind, kindAt?_bind]
  simp [Lexeme.is]
  rfl

/-- Segments that are each read in front of the next one or of the end are read together. -/
theorem segments_readsAs [g.Shrink] {segments : List (Segment σ)} (some : segments ≠ [])
    (words : ∀ segment ∈ segments, segment.Regular)
    (each : ∀ segment ∈ segments, ∀ rest, EndsSegment rest →
      ReadsAs (Parse.segment g) (Segment.map fun _ => ()) segment.lexemes rest
        (segment.map fun _ => ())) (ends : endsPath rest) :
    ReadsAs (many (segmentStep g)) (List.map (Segment.map fun _ => ()))
      ([Lexeme.sign "::"].intercalate (segments.map Segment.lexemes)) rest
      (segments.map (Segment.map fun _ => ())) := by
  suffices repeats : ∃ found, Repeats (segmentStep g)
      ([Lexeme.sign "::"].intercalate (segments.map Segment.lexemes) ++ rest) found rest ∧
      found.map (Segment.map fun _ => ()) = segments.map (Segment.map fun _ => ()) by
    obtain ⟨found, steps, same⟩ := repeats
    exact ⟨found, many_eq_ok_iff.mpr steps, same⟩
  induction segments with
  | nil => exact absurd rfl some
  | cons segment others ih =>
    obtain ⟨here, there⟩ := List.forall_mem_cons.mp each
    cases others with
    | nil =>
      obtain ⟨found, read, same⟩ := here rest (endsSegment_of_endsPath ends)
      rw [List.map_singleton, List.intercalate_singleton]
      exact ⟨[found], .last (segmentStep_last read ends), by simp [same]⟩
    | cons next others =>
      obtain ⟨-, words⟩ := List.forall_mem_cons.mp words
      obtain ⟨more, steps, looks⟩ := ih (List.cons_ne_nil _ _) words there
      obtain ⟨place, ident, args⟩ := next
      obtain ⟨behind, begins, -⟩ := Segment.intercalate_cons place ident args others
      have isWord : IsWord ident := (words _ List.mem_cons_self).1
      obtain ⟨found, read, same⟩ := here _
        (endsSegment_colons isWord (args.lexemes ++ behind ++ rest))
      rw [List.map_cons, List.map_cons, List.intercalate_cons_cons, List.append_assoc,
        List.append_assoc, ← List.map_cons, begins]
      rw [begins] at steps
      refine ⟨[found] ++ more, .next (segmentStep_next read) ?_ steps, by simp [same, looks]⟩
      simp
      omega

theorem pathHead_readsAs {head : PathHead σ} (self : ∀ ty ∈ head.self?, ty.Begins ∧ Rereads g ty)
    (traits : ∀ trait ∈ head.trait?, Rereads g (Ty.path trait)) (isWord : IsWord word)
    (rest : List Lexeme) :
    ReadsAs (pathHead g) (PathHead.map fun _ => ()) head.lexemes (.word word :: rest)
      (head.map fun _ => ()) := by
  cases head with
  | relative => exact ⟨.relative, pathHead_of_word g (Scan.isScanned_of_isToken isWord), rfl⟩
  | rooted =>
    refine ⟨.rooted, ?_, rfl⟩
    rw [pathHead, mark_bind, eat_bind]
    simp [PathHead.lexemes, Lexeme.is, eat_bind]
    rfl
  | self place ty =>
    obtain ⟨begins, rereads⟩ := self ty rfl
    obtain ⟨found, read, same⟩ := rereads.type begins true
      (.sign ">" :: .sign "::" :: .word word :: rest) (endsPath_sign (by decide) _)
    apply readsAs_of_map
    rw [pathHead, mark_bind, PathHead.lexemes, List.cons_append, List.append_assoc, eat_bind,
      if_pos (by simp [Lexeme.is]), if_pos rfl, List.drop_one, List.tail_cons]
    refine (congrArg _ (bind_of_ok read)).trans ?_
    simp [eat_bind, expect_bind, Lexeme.is, extentFrom_bind]
    exact congrArg (fun shape => Except.ok (PathHead.self () shape, _)) same
  | selfAs place ty trait =>
    obtain ⟨begins, rereads⟩ := self ty rfl
    obtain ⟨found, read, same⟩ := rereads.type begins true
      (.word "as" :: (trait.lexemes ++ .sign ">" :: .sign "::" :: .word word :: rest))
      (by simp [endsPath, Lexeme.is])
    obtain ⟨seen, readTrait, looks⟩ := (traits trait rfl).path trait rfl
      (.sign ">" :: .sign "::" :: .word word :: rest) (endsPath_sign (by decide) _)
    apply readsAs_of_map
    rw [pathHead, mark_bind, PathHead.lexemes, List.cons_append, List.append_assoc, eat_bind,
      if_pos (by simp [Lexeme.is]), if_pos rfl, List.drop_one, List.tail_cons, List.cons_append,
      List.append_assoc]
    refine (congrArg _ (bind_of_ok read)).trans ?_
    rw [eat_bind, if_pos (by simp [Lexeme.is]), if_pos rfl, List.drop_one, List.tail_cons,
      bind_of_ok readTrait]
    simp [expect_bind, Lexeme.is, extentFrom_bind]
    change Except.ok (PathHead.selfAs () found.shape (seen.map fun _ => ()), _) = _
    rw [same, looks]
    rfl

theorem pathLayer_readsAs [g.Shrink] {path : TyPath σ} (proper : (Ty.path path).Proper)
    (inner : ∀ ty ∈ path.inner, Recognized g ty) (ends : endsPath rest) :
    ReadsAs (pathLayer g) (TyPath.map fun _ => ()) path.lexemes rest (path.map fun _ => ()) := by
  obtain ⟨place, head, segments⟩ := path
  obtain ⟨decodable, some, begins, words⟩ := proper _ .whole
  have inside : ∀ segment ∈ segments, segment.Decodable := by
    cases decodable with
    | path headed inside => exact inside
  obtain ⟨found, read, same⟩ := segments_readsAs some words (fun segment member rest ends =>
    segment_readsAs (inside segment member) (words segment member) (fun arg isArg ty held =>
      inner ty (TyPath.mem_inner.mpr (.inr (.inr ⟨segment, member, arg, isArg, held⟩)))) ends) ends
  obtain ⟨⟨spot, ident, args⟩, others, rfl⟩ := List.exists_cons_of_ne_nil some
  obtain ⟨behind, first, -⟩ := Segment.intercalate_cons spot ident args others
  obtain ⟨front, headed, looks⟩ := pathHead_readsAs
    (fun ty own => ⟨begins ty own, (inner ty (TyPath.mem_inner.mpr (.inl own))).rereads⟩)
    (fun trait own => (inner _ (TyPath.mem_inner.mpr (.inr (.inl ⟨trait, own, rfl⟩)))).rereads)
    (words _ List.mem_cons_self).1 (args.lexemes ++ behind ++ rest)
  rw [← List.cons_append, ← first] at headed
  apply readsAs_of_map
  rw [Parse.pathLayer, mark_bind, TyPath.lexemes, Segment.lexemesAll_eq, List.append_assoc,
    bind_of_ok headed, bind_of_ok read]
  change Except.ok (TyPath.mk () (front.map fun _ => ()) (Segment.mapAll _ found), rest) = _
  rw [Segment.mapAll_eq_map, same, looks, TyPath.map, Segment.mapAll_eq_map]

theorem tyLayer_of_opens (opens : Opens pathMarks word? lexemes)
    (begins : ∀ word ∈ word?, word ∉ typeWords) (sum : Bool) :
    tyLayer g sum (lexemes ++ rest) = pathTy g sum (lexemes ++ rest) := by
  cases opens with
  | mark member =>
    simp only [pathMarks, List.mem_cons, List.not_mem_nil, or_false] at member
    rw [tyLayer, get_bind]
    rcases member with rfl | rfl <;>
      simp [Lexeme.isPunct, Lexeme.isIdent, startsBareFn, startsPath, Lexeme.isPunctOf]
  | word first isWord goesOn => exact tyLayer_of_word g sum (begins _ first)

theorem pathTy_readsAs [g.Shrink] {path : TyPath σ} (sum : Bool)
    (read : ReadsAs (pathLayer g) (TyPath.map fun _ => ()) path.lexemes rest
      (path.map fun _ => ())) (ends : endsPath rest) :
    ReadsAs (pathTy g sum) Ty.shape path.lexemes rest (Ty.path path).shape := by
  obtain ⟨found, read, same⟩ := read
  obtain ⟨-, -, -, noBang, noPlus⟩ := endsPath_iff.mp ends
  refine ⟨.path found, ?_, congrArg Ty.path same⟩
  rw [pathTy, get_bind, bind_of_ok read, at?_bind, noBang]
  simp only [peekAt_bind, Bool.false_and, Bool.false_eq_true, if_false, at?_bind, noPlus,
    Bool.and_false]
  rfl

end Paths

section Types

/-! ## Types -/

variable {g : Grammar} {rest : List Lexeme}

theorem bracketTy_readsAs {length : String} (begins : elem.Begins) (isLength : IsLength length)
    (rereads : Rereads g elem) (rest : List Lexeme) :
    ReadsAs (bracketTy g) Ty.shape (Ty.array place elem length).lexemes rest
      (Ty.array place elem length).shape := by
  obtain ⟨lexemes, tokens, balanced, apart, some, rfl⟩ := isLength
  obtain ⟨found, read, same⟩ := rereads.type begins true
    (.sign ";" :: (lexemes ++ .sign "]" :: rest)) (endsPath_sign (by decide) _)
  have collected : collectUntil ["]"] false (lexemes ++ .sign "]" :: rest) =
      .ok (lexemes, .sign "]" :: rest) :=
    collectUntil_of_balanced (by decide : (Lexeme.sign "]").isCloser) balanced rest
  apply readsAs_of_map
  rw [bracketTy, mark_bind, skip_bind, Ty.lexemes, lengthLexemes_join tokens,
    (Lexeme.fuse_eq_self_iff lexemes).mpr apart, List.cons_append, List.drop_one, List.tail_cons,
    List.append_assoc, List.cons_append, List.append_assoc]
  refine (congrArg _ (bind_of_ok read)).trans ?_
  rw [eat_bind, if_neg (by simp [Lexeme.is])]
  simp only [Bool.false_eq_true, if_false]
  rw [expect_bind, if_pos (by simp [Lexeme.is]), List.drop_one, List.tail_cons,
    bind_of_ok collected]
  simp [some, expect_bind, Lexeme.is]
  exact congrArg (fun shape => Except.ok (Ty.array () shape _, rest)) same

theorem parenTy_readsAs (begins : elem.Begins) (known : Recognized g elem) (rest : List Lexeme) :
    ReadsAs (parenTy g) Ty.shape (Ty.paren place elem).lexemes rest
      (Ty.paren place elem).shape := by
  obtain ⟨found, read, same⟩ := known.rereads.type begins true (.sign ")" :: rest)
    (endsPath_sign (by decide) _)
  have opens := known.opens.any_is (by decide : ")" ∈ [")", ">"]) (.sign ")" :: rest)
  apply readsAs_of_map
  rw [Parse.parenTy, mark_bind, skip_bind, Ty.lexemes, List.cons_append, List.drop_one, List.tail_cons,
    List.append_assoc, List.singleton_append, eat_bind, opens]
  simp only [Bool.false_eq_true, if_false]
  rw [bind_of_ok read, eat_bind, if_pos (by simp [Lexeme.is]), if_pos rfl]
  exact congrArg (fun shape => Except.ok (Ty.paren () shape, rest)) same

/-- Behind the first type of a tuple stands a comma, also if it is the only one. -/
theorem lexemes_tuple (place : σ) (first : Ty σ) (others : List (Ty σ)) :
    (Ty.tuple place (first :: others)).lexemes = .sign "(" :: (first.lexemes ++ .sign "," ::
      ([Lexeme.sign ","].intercalate (others.map Ty.lexemes) ++ [.sign ")"])) := by
  cases others with
  | nil => simp [Ty.lexemes]
  | cons next others =>
    rw [Ty.lexemes, Ty.lexemesAll_eq, List.map_cons, List.map_cons, List.intercalate_cons_cons]
    · simp
    · simp

theorem tupleTy_readsAs [g.Shrink] {elems : List (Ty σ)} (begins : ∀ elem ∈ elems, elem.Begins)
    (known : ∀ elem ∈ elems, Recognized g elem) (rest : List Lexeme) :
    ReadsAs (parenTy g) Ty.shape (Ty.tuple place elems).lexemes rest
      (Ty.tuple place elems).shape := by
  cases elems with
  | nil =>
    apply readsAs_of_map
    rw [Parse.parenTy, mark_bind, skip_bind, Ty.lexemes, eat_bind]
    · simp [Lexeme.is, Ty.lexemesAll]
      rfl
    · simp
  | cons first others =>
    obtain ⟨begins, beginAll⟩ := List.forall_mem_cons.mp begins
    obtain ⟨known, knownAll⟩ := List.forall_mem_cons.mp known
    obtain ⟨more, readAll, looks⟩ := separated_readsAs (by decide : ")" ≠ ",")
      (fun elem member => (knownAll elem member).opens.any_is (by decide))
      (fun elem member mark stops rest => (knownAll elem member).rereads.type
        (beginAll elem member) true (.sign mark :: rest) (endsPath_sign (by
          simp only [List.mem_cons, List.not_mem_nil, or_false] at stops ⊢
          tauto) rest)) rest
    obtain ⟨found, read, same⟩ := known.rereads.type begins true (.sign "," ::
      ([Lexeme.sign ","].intercalate (others.map Ty.lexemes) ++ .sign ")" :: rest))
      (endsPath_sign (by decide) _)
    have opens := known.opens.any_is (by decide : ")" ∈ [")", ">"]) (.sign "," ::
      ([Lexeme.sign ","].intercalate (others.map Ty.lexemes) ++ .sign ")" :: rest))
    have behind : tupleRest g (.sign "," ::
        ([Lexeme.sign ","].intercalate (others.map Ty.lexemes) ++ .sign ")" :: rest)) =
        .ok (more, .sign ")" :: rest) := by
      rw [tupleRest, eat_bind, if_pos (by simp [Lexeme.is]), if_pos rfl, List.drop_one,
        List.tail_cons]
      exact readAll
    apply readsAs_of_map
    rw [Parse.parenTy, mark_bind, skip_bind, lexemes_tuple, List.cons_append, List.drop_one,
      List.tail_cons, List.append_assoc, List.cons_append, List.append_assoc,
      List.singleton_append, eat_bind, opens]
    simp only [Bool.false_eq_true, if_false]
    rw [bind_of_ok read, eat_bind, if_neg (by simp [Lexeme.is])]
    simp only [Bool.false_eq_true, if_false]
    rw [bind_of_ok behind, expect_bind, if_pos (by simp [Lexeme.is])]
    change Except.ok (Ty.tuple () (found.shape :: Ty.mapAll _ more), rest) = _
    have all : more.map (Ty.map fun _ => ()) = others.map (Ty.map fun _ => ()) := looks
    rw [Ty.mapAll_eq_map, same, all, Ty.shape, Ty.shape, Ty.map, Ty.mapAll, Ty.mapAll_eq_map]

theorem tyLayer_readsAs [g.Shrink] {ty : Ty σ} (proper : ty.Proper) (begins : ty.Begins)
    (inner : ∀ next ∈ ty.inner, Recognized g next) (sum : Bool) (ends : endsPath rest) :
    ReadsAs (tyLayer g sum) Ty.shape ty.lexemes rest ty.shape := by
  obtain ⟨decodable, regular⟩ := proper _ .whole
  cases decodable with
  | @path place head segments headed inside =>
    have opens := TyPath.opens (.path headed inside) regular
    have read := pathTy_readsAs sum (pathLayer_readsAs proper inner ends) ends
    rw [ReadsAs, Ty.lexemes, tyLayer_of_opens opens begins]
    exact read
  | @array place elem length inside =>
    obtain ⟨begins, isLength⟩ := regular
    have known := inner elem List.mem_cons_self
    exact bracketTy_readsAs begins isLength known.rereads rest
  | @paren place elem inside =>
    exact parenTy_readsAs regular (inner elem List.mem_cons_self) rest
  | @tuple place elems inside =>
    obtain ⟨found, read, same⟩ := @tupleTy_readsAs σ place g _ elems regular inner rest
    refine ⟨found, ?_, same⟩
    rw [← read]
    cases elems with
    | nil => rfl
    | cons first others => rw [lexemes_tuple]; rfl

/-- The lexemes of a proper type are read as the type, if there are more layers than lexemes. -/
theorem known_of_proper (ty : Ty σ) (proper : ty.Proper) {depth : Nat}
    (enough : ty.lexemes.length < depth) : Recognized (grammar depth) ty := by
  induction ty using Ty.inner_induction generalizing depth with
  | step ty ih =>
    obtain ⟨⟨decodable, regular⟩, others⟩ := Ty.every_iff.mp proper
    cases depth with
    | zero => omega
    | succ depth =>
      have inner (next : Ty σ) (member : next ∈ ty.inner) : Recognized (grammar depth) next := by
        have shorter := Ty.length_lt_of_mem_inner member
        exact ih next member (others next member) (by omega)
      refine ⟨⟨fun begins sum rest => tyLayer_readsAs proper begins inner sum, ?_⟩,
        Ty.opens decodable regular⟩
      rintro path rfl rest ends
      exact pathLayer_readsAs proper inner ends

end Types

end Parse

section Texts

/-- A text is parsed to a type if its tokens are read as one. -/
theorem parseType_eq_ok_iff {text : List Char} {ty : Ty Span} : parseType text = .ok ty ↔
    ∃ tokens found, tokenize text = .ok tokens ∧
      Parse.ty true (tokens.map (·.toLexeme)) = .ok (found, []) ∧
      ty = found.map (Source.mk text tokens.toArray).span := by
  cases read : tokenize text with
  | error failure => simp [parseType, Source.read, read, bind, Except.bind]
  | ok tokens =>
    simp only [parseType, Source.read, Source.run, Source.lexemes, read, bind, Except.bind, pure,
      Except.pure]
    cases parsed : Parse.ty true (tokens.map (·.toLexeme)) with
    | error complaint => simp [parsed]
    | ok result =>
      obtain ⟨found, _ | ⟨lexeme, rest⟩⟩ := result
      · simp [parsed, eq_comm]
      · simp [parsed]

/-- The text of a proper type is read as the type. -/
theorem parseType_render {ty : Ty σ} (proper : ty.Proper) (begins : ty.Begins) :
    ∃ again, parseType ty.render.toList = .ok again ∧ again.shape = ty.shape := by
  obtain ⟨tokens, read, spelled⟩ :=
    Scan.reads_iff_tokenize.mp (proper.spelt [] Scan.ends_nil)
  have known := known_of_proper ty proper (Nat.lt_succ_self _)
  obtain ⟨found, parsed, same⟩ := known.rereads.type begins true [] rfl
  rw [List.append_nil] at parsed
  refine ⟨found.map _, parseType_eq_ok_iff.mpr ⟨tokens, found, read, ?_, rfl⟩, ?_⟩
  · rw [spelled]
    exact parsed
  · rw [Ty.shape_map]
    exact same

end Texts

end ActorGlue
