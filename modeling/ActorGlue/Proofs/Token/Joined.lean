import ActorGlue.Token.Join
import ActorGlue.Proofs.Token.Written

/-!
# Joined lexemes

Lexemes that are joined to text are read again, except that two marks without a blank between them
may become one: colons, points, or an arrow. No delimiter is among these, so the text has the
delimiters of the lexemes in their order. Exactly the lexemes without such neighbours are read as
they were.
-/

namespace ActorGlue

/-- The lexeme opens or closes a group. -/
def Lexeme.isDelimiter (lexeme : Lexeme) : Bool :=
  lexeme.closer?.isSome || lexeme.isCloser

/-- The delimiters among the lexemes. -/
def delimiters (lexemes : List Lexeme) : List Lexeme :=
  lexemes.filter (·.isDelimiter)

theorem delimiters_cons (lexeme : Lexeme) (rest : List Lexeme) :
    delimiters (lexeme :: rest) = delimiters [lexeme] ++ delimiters rest :=
  List.filter_append [lexeme] rest

variable {c : Char} {lexemes : List Lexeme}

namespace Lexeme

/-- What follows a lexeme in joined text, up to the bracket that closes it. -/
def follow (left : Lexeme) (rest : List Lexeme) (ahead : List Char) : List Char :=
  (joinAfter left rest).toList ++ ']' :: ahead

variable {left right : Lexeme} {rest : List Lexeme} {ahead : List Char}

theorem follow_nil : follow left [] ahead = ']' :: ahead := by
  simp [follow, joinAfter]

theorem follow_of_tight (tight : left.isTight right) :
    follow left (right :: rest) ahead = right.text.toList ++ follow right rest ahead := by
  simp [follow, joinAfter, tight]

theorem follow_of_loose (loose : left.isTight right = false) :
    follow left (right :: rest) ahead = ' ' :: (right.text.toList ++ follow right rest ahead) := by
  simp [follow, joinAfter, loose]

/-- How two neighbours come to stand without a blank. -/
theorem isTight_cases (tight : left.isTight right) :
    right.isPunct ":" ∨ right.isPunct "!" ∧ left.kind = .ident ∨
      left.isPunctOf spacedAfter = false ∧
        (left.isPunctOf tightAfter ∨ right.isPunctOf tightBefore) := by
  unfold isTight at tight
  split_ifs at tight with first second third fourth
  · simp only [Bool.or_eq_true, Bool.and_eq_true, decide_eq_true_eq] at first
    exact first.imp_right .inl
  · refine .inr (.inr ⟨by simpa using second, ?_⟩)
    simpa using tight

/-- The marks that stand without a blank behind a lexeme that binds nothing. -/
def bound : List String :=
  ":" :: "!" :: tightBefore

theorem bound_of_tight (tight : left.isTight right) (loose : left.isPunctOf tightAfter = false) :
    right.kind = .punct ∧ right.text ∈ bound ∧
      (left.isPunctOf spacedAfter ∨ left.kind = .punct → right.text ≠ "!") ∧
      (left.isPunctOf spacedAfter → right.text = ":") := by
  rcases isTight_cases tight with colon | ⟨call, word⟩ | ⟨apart, after | before⟩
  · simp only [isPunct, Bool.and_eq_true, decide_eq_true_eq] at colon
    refine ⟨colon.1, by rw [colon.2]; decide, fun _ => by rw [colon.2]; decide, fun _ => colon.2⟩
  · simp only [isPunct, Bool.and_eq_true, decide_eq_true_eq] at call
    refine ⟨call.1, by rw [call.2]; decide, ?_, ?_⟩
    · simp [isPunctOf, word]
    · simp [isPunctOf, word]
  · rw [after] at loose
    cases loose
  · simp only [isPunctOf, Bool.and_eq_true, decide_eq_true_eq, List.contains_eq_mem] at before
    refine ⟨before.1, List.mem_cons_of_mem _ (List.mem_cons_of_mem _ before.2), fun _ same => ?_,
      fun spaced => ?_⟩
    · rw [same] at before
      exact absurd before.2 (by decide)
    · rw [apart] at spaced
      cases spaced

/-- What follows a lexeme that binds nothing begins with a blank, the bracket or a mark. -/
theorem follow_head (loose : left.isPunctOf tightAfter = false)
    (head : (follow left rest ahead).head? = some c) :
    c = ' ' ∨ c = ']' ∨ ∃ right others, rest = right :: others ∧ left.isTight right ∧
      right.kind = .punct ∧ right.text ∈ bound ∧ right.text.toList.head? = some c := by
  cases rest with
  | nil =>
    rw [follow_nil] at head
    exact .inr (.inl (by simpa using head.symm))
  | cons right others =>
    cases tight : left.isTight right with
    | false =>
      rw [follow_of_loose tight] at head
      exact .inl (by simpa using head.symm)
    | true =>
      obtain ⟨kind, member, -⟩ := bound_of_tight tight loose
      have some : ∀ text ∈ bound, text.toList ≠ [] := by decide
      obtain ⟨d, more, text⟩ := List.exists_cons_of_ne_nil (some _ member)
      refine .inr (.inr ⟨right, others, rfl, tight, kind, member, ?_⟩)
      rw [follow_of_tight tight, text] at head
      rw [text]
      simpa using head

theorem ends_follow (word : left.kind ≠ .punct) : Scan.Ends (follow left rest ahead) := by
  have loose : left.isPunctOf tightAfter = false := by simp [isPunctOf, word]
  have seals : ∀ text ∈ bound, text.toList.head?.all Scan.isSeal := by decide
  refine ⟨fun c head => ?_, fun c more same => ?_⟩
  · obtain rfl | rfl | ⟨right, others, rfl, -, -, member, first⟩ := follow_head loose head
    · decide
    · decide
    · simpa [first] using seals _ member
  · have head : (follow left rest ahead).head? = some '.' := by rw [same, List.head?_cons]
    obtain point | point | ⟨right, others, rfl, tight, kind, member, first⟩ :=
      follow_head loose head
    · cases point
    · cases point
    · -- The point is a mark by itself, and no numeral stands behind it without a blank.
      have points : ∀ text ∈ bound, text.toList.head? = some '.' → text = "." := by decide
      have text := points _ member first
      rw [follow_of_tight tight, text] at same
      have behind : follow right others ahead = c :: more := (List.cons.inj same).2
      have head : (follow right others ahead).head? = some c := by rw [behind, List.head?_cons]
      have digits : ∀ text ∈ bound, text.toList.head?.all fun c => !c.isDigit := by decide
      obtain rfl | rfl | ⟨_, _, rfl, -, -, member, first⟩ :=
        follow_head (by simp [isPunctOf, text, tightAfter]) head
      · decide
      · decide
      · simpa [first] using digits _ member

/-- The marks that two neighbours become when no blank stands between them. -/
def merges : List (String × String) :=
  [(".", "."), ("..", "."), (":", ":"), ("-", ">")]

/-- The first lexeme of a text that goes on as after `left`: `left`, or what it became part of. -/
def Leads (head left : Lexeme) : Prop :=
  head = left ∨ head.kind = .punct ∧ left.kind = .punct ∧
    ∃ pair ∈ merges, head.text = pair.1 ++ pair.2 ∧ left.text = pair.2

end Lexeme

namespace Scan

theorem goesOn_cases {text : List Char} (some : text ≠ []) (goes : goesOn text c) :
    (text, c) ∈ [(['.'], '.'), (['.', '.'], '='), (['.', '.'], '.'), ([':'], ':'), (['-'], '>'),
      (['='], '>')] := by
  rcases text with _ | ⟨first, _ | ⟨second, _ | ⟨third, more⟩⟩⟩
  · exact absurd rfl some
  all_goals
    try have last : (more ++ [c]).isPrefixOf [] = false := by cases more <;> rfl
    simp only [goesOn, compoundMarks, List.cons_append, List.nil_append, List.isPrefixOf,
      List.any_cons, List.any_nil, Bool.and_eq_true, Bool.or_eq_true, beq_iff_eq] at goes
    simp only [List.mem_cons, List.not_mem_nil, Prod.mk.injEq, List.cons.injEq]
    grind

end Scan

namespace Lexeme

variable {head left : Lexeme} {rest : List Lexeme} {ahead : List Char} {right : Lexeme}

theorem IsToken.ne_nil {lexeme : Lexeme} (isToken : lexeme.IsToken) : lexeme.text.toList ≠ [] := by
  obtain ⟨c, more, text, -⟩ := isToken
  simp [show lexeme.text.toList = c :: more from text]

theorem isToken_merged : ∀ pair ∈ merges,
    (⟨.punct, pair.1 ++ pair.2⟩ : Lexeme).IsToken := by
  intro pair member
  simp only [merges, List.mem_cons, List.not_mem_nil, or_false] at member
  obtain rfl | rfl | rfl | rfl := member
  · exact ⟨'.', ['.'], rfl, rfl⟩
  · exact ⟨'.', ['.', '.'], rfl, rfl⟩
  · exact ⟨':', [':'], rfl, rfl⟩
  · exact ⟨'-', ['>'], rfl, rfl⟩

/-- A mark that leads is the one before the gap, or three points, colons or an arrow, or two
points of which the second stands before the gap. -/
theorem Leads.cases (leads : Leads head left) (punct : head.kind = .punct) :
    left.kind = .punct ∧ (left.text = head.text ∨ head.text ∈ ["...", "::", "->"] ∨
      head.text = ".." ∧ left.text = ".") := by
  obtain rfl | ⟨-, mark, pair, member, text, text'⟩ := leads
  · exact ⟨punct, .inl rfl⟩
  · refine ⟨mark, .inr ?_⟩
    simp only [merges, List.mem_cons, List.not_mem_nil, or_false] at member
    rw [text, text']
    obtain rfl | rfl | rfl | rfl := member <;> decide

/-- The marks that go on, and what they go on with. -/
def growing : List (String × Char) :=
  [(".", '.'), ("..", '='), ("..", '.'), (":", ':'), ("-", '>'), ("=", '>')]

/-- A mark that goes on into what follows it makes one mark with its neighbour. -/
theorem merges_of_goesOn (leads : Leads head left) (punct : head.kind = .punct)
    (nonempty : head.text.toList ≠ []) (first : (follow left rest ahead).head? = some c)
    (goes : Scan.goesOn head.text.toList c) :
    ∃ right others, rest = right :: others ∧ left.isTight right ∧ right.kind = .punct ∧
      (head.text, right.text) ∈ merges := by
  have grows : (head.text, c) ∈ growing := by
    have found := Scan.goesOn_cases nonempty goes
    simp only [growing, List.mem_cons, List.not_mem_nil, or_false, Prod.mk.injEq,
      ← String.toList_inj] at found ⊢
    exact found
  obtain ⟨mark, text⟩ := leads.cases punct
  replace text : left.text = head.text ∨ head.text = ".." ∧ left.text = "." := by
    have short : ∀ pair ∈ growing, pair.1 ∉ ["...", "::", "->"] := by decide
    exact text.imp_right fun other => other.resolve_left (short _ grows)
  have loose : left.isPunctOf tightAfter = false := by
    have apart : ∀ pair ∈ growing, tightAfter.contains pair.1 = false := by decide
    simp only [isPunctOf, mark, decide_true, Bool.true_and]
    obtain same | ⟨-, same⟩ := text
    · rw [same]
      exact apart _ grows
    · rw [same]
      decide
  have apart : ∀ pair ∈ growing, pair.2 ≠ ' ' ∧ pair.2 ≠ ']' := by decide
  obtain blank | bracket | ⟨right, others, rfl, tight, kind, member, starts⟩ :=
    follow_head loose first
  · exact absurd blank (apart _ grows).1
  · exact absurd bracket (apart _ grows).2
  · refine ⟨right, others, rfl, tight, kind, ?_⟩
    have allowed : ∀ pair ∈ growing, ∀ text ∈ bound, (spacedAfter.contains pair.1 → text = ":") →
        text.toList.head? = some pair.2 → (pair.1, text) ∈ merges := by decide
    refine allowed _ grows _ member (fun spaced => ?_) starts
    obtain ⟨-, -, -, colon⟩ := bound_of_tight tight loose
    obtain same | ⟨same, -⟩ := text
    · refine colon ?_
      simp only [isPunctOf, mark, decide_true, Bool.true_and, same]
      exact spaced
    · exact absurd (same ▸ spaced) (by decide : ¬ spacedAfter.contains "..")

/-- The lexeme before a gap is read if it does not go on. -/
theorem reads_lead (leads : Leads head left) (isToken : head.IsToken)
    (stays : head.kind = .punct →
      ∀ c ∈ (follow left rest ahead).head?, Scan.goesOn head.text.toList c = false) :
    Scan.Reads head.text.toList [head] (follow left rest ahead) := by
  by_cases punct : head.kind = .punct
  · refine Scan.reads_mark isToken punct (stays punct) fun slash => ?_
    obtain ⟨mark, text⟩ := leads.cases punct
    have text : left.text = "/" := by simpa [slash] using text
    have loose : left.isPunctOf tightAfter = false := by
      simp [isPunctOf, mark, text, tightAfter]
    have other : ∀ text ∈ bound, text.toList.head?.all fun c => c ∉ ['/', '*'] := by decide
    have apart : ∀ c ∈ ['/', '*'], (follow left rest ahead).head? ≠ some c := by
      intro c slash first
      obtain rfl | rfl | ⟨right, others, rfl, -, -, member, starts⟩ := follow_head loose first
      · simp at slash
      · simp at slash
      · have other := other _ member
        simp only [starts, Option.all_some, decide_eq_true_eq] at other
        exact other slash
    exact ⟨apart '/' (by simp), apart '*' (by simp)⟩
  · obtain rfl : head = left := leads.resolve_right fun merged => punct merged.1
    exact Scan.reads_token isToken punct (ends_follow punct)

/-- Neighbours that become one mark stand without a blank, also behind what the first of them
became part of. -/
theorem isTight_of_merges (leads : Leads head left) (punct : head.kind = .punct)
    (mark : right.kind = .punct) (member : (head.text, right.text) ∈ merges) :
    left.isTight right := by
  have tight : ∀ pair ∈ merges, isTight ⟨.punct, pair.1⟩ ⟨.punct, pair.2⟩ := by decide
  have points : ∀ pair ∈ merges, pair.1 = ".." → isTight ⟨.punct, "."⟩ ⟨.punct, pair.2⟩ := by decide
  have short : ∀ pair ∈ merges, pair.1 ∉ ["...", "::", "->"] := by decide
  obtain ⟨kind, text⟩ := leads.cases punct
  obtain ⟨_, _⟩ := left
  obtain ⟨_, _⟩ := right
  obtain rfl := kind
  obtain rfl := mark
  obtain rfl | long | ⟨both, rfl⟩ := text
  · exact tight _ member
  · exact absurd long (short _ member)
  · exact points _ member both

/-- The lexeme before a gap is read by itself, unless it becomes one mark with the next one. -/
theorem reads_lead_of_next (leads : Leads head left) (isToken : head.IsToken)
    (apart : ¬(head.kind = .punct ∧ right.kind = .punct ∧ (head.text, right.text) ∈ merges)) :
    Scan.Reads head.text.toList [head] (follow left (right :: rest) ahead) :=
  reads_lead leads isToken fun punct c first => by
    by_contra goes
    obtain ⟨_, _, same, found⟩ := merges_of_goesOn leads punct isToken.ne_nil first
      (by simpa using goes)
    obtain ⟨rfl, rfl⟩ := List.cons.inj same
    exact apart ⟨punct, found.2⟩

/-- The last lexeme is read in front of the bracket. -/
theorem reads_lead_last (leads : Leads head left) (isToken : head.IsToken) :
    Scan.Reads head.text.toList [head] (']' :: ahead) := by
  rw [← @follow_nil left]
  refine reads_lead leads isToken fun punct c first => ?_
  by_contra goes
  obtain ⟨_, _, none, -⟩ := merges_of_goesOn leads punct isToken.ne_nil first (by simpa using goes)
  cases none

/-- A lexeme that is read by itself is read before those that follow it, with or without a blank. -/
theorem reads_joined {found : List Lexeme}
    (here : Scan.Reads head.text.toList [head] (follow left (right :: rest) ahead))
    (there : Scan.Reads (right.text.toList ++ (joinAfter right rest).toList) found
      (']' :: ahead)) :
    Scan.Reads (head.text.toList ++ (joinAfter left (right :: rest)).toList) (head :: found)
      (']' :: ahead) := by
  refine Scan.Reads.append here ?_
  cases tight : left.isTight right with
  | true => simpa [joinAfter, tight] using there
  | false =>
    have blank := Scan.Reads.append (Scan.reads_blank (c := ' ') (by decide) _) there
    simpa [joinAfter, tight] using blank

/-- What the lexemes behind `head` are read as together with it: marks that become one, which may
become one with the next, and all others as they are. -/
def fuseAfter (head : Lexeme) : List Lexeme → List Lexeme
  | [] => [head]
  | right :: rest =>
    if head.kind = .punct ∧ right.kind = .punct ∧ (head.text, right.text) ∈ merges then
      fuseAfter ⟨.punct, head.text ++ right.text⟩ rest
    else head :: fuseAfter right rest

/-- What joined lexemes are read as. -/
def fuse : List Lexeme → List Lexeme
  | [] => []
  | first :: rest => fuseAfter first rest

theorem reads_joinAfter (leads : Leads head left) (isToken : head.IsToken)
    (tokens : ∀ lexeme ∈ rest, lexeme.IsToken) (ahead : List Char) :
    Scan.Reads (head.text.toList ++ (joinAfter left rest).toList) (fuseAfter head rest)
      (']' :: ahead) := by
  -- Either the first lexeme is read by itself, or it becomes one mark with the second.
  induction rest generalizing head left with
  | nil => simpa [joinAfter, fuseAfter] using reads_lead_last leads isToken
  | cons right others ih =>
    obtain ⟨rightToken, tokens⟩ := List.forall_mem_cons.mp tokens
    by_cases merge : head.kind = .punct ∧ right.kind = .punct ∧ (head.text, right.text) ∈ merges
    · rw [fuseAfter, if_pos merge]
      obtain ⟨punct, mark, member⟩ := merge
      have tight := isTight_of_merges leads punct mark member
      have reads := @ih ⟨.punct, head.text ++ right.text⟩ right
        (.inr ⟨rfl, mark, _, member, rfl, rfl⟩) (isToken_merged _ member) tokens
      simpa [joinAfter, tight] using reads
    · rw [fuseAfter, if_neg merge]
      exact reads_joined (reads_lead_of_next leads isToken merge) (ih (.inl rfl) rightToken tokens)

/-- Joined lexemes are read in front of a bracket. -/
theorem reads_join (tokens : ∀ lexeme ∈ lexemes, lexeme.IsToken) (ahead : List Char) :
    Scan.Reads (join lexemes).toList (fuse lexemes) (']' :: ahead) := by
  cases lexemes with
  | nil => exact .nil _
  | cons first rest =>
    obtain ⟨isToken, tokens⟩ := List.forall_mem_cons.mp tokens
    rw [join, String.toList_append]
    exact reads_joinAfter (.inl rfl) isToken tokens ahead

theorem isDelimiter_of_merges : ∀ pair ∈ merges,
    (⟨.punct, pair.1⟩ : Lexeme).isDelimiter = false ∧
      (⟨.punct, pair.2⟩ : Lexeme).isDelimiter = false ∧
      (⟨.punct, pair.1 ++ pair.2⟩ : Lexeme).isDelimiter = false := by
  decide

theorem delimiters_fuseAfter (head : Lexeme) (rest : List Lexeme) :
    delimiters (fuseAfter head rest) = delimiters (head :: rest) := by
  induction rest generalizing head with
  | nil => rfl
  | cons right others ih =>
    rw [fuseAfter]
    split_ifs with merge
    · obtain ⟨_, _⟩ := head
      obtain ⟨_, _⟩ := right
      obtain ⟨rfl, rfl, member⟩ := merge
      obtain ⟨first, second, both⟩ := isDelimiter_of_merges _ member
      rw [ih]
      simp only [delimiters, List.filter_cons, first, second, both, Bool.false_eq_true, if_false]
    · rw [delimiters_cons, ih, ← delimiters_cons]

/-- Joined lexemes have their delimiters in order. -/
theorem delimiters_fuse (lexemes : List Lexeme) : delimiters (fuse lexemes) = delimiters lexemes := by
  cases lexemes with
  | nil => rfl
  | cons first rest => exact delimiters_fuseAfter first rest

/-- No two neighbours are marks that become one when no blank stands between them. -/
def Apart (lexemes : List Lexeme) : Prop :=
  lexemes.IsChain fun left right =>
    ¬(left.kind = .punct ∧ right.kind = .punct ∧ (left.text, right.text) ∈ merges)

theorem length_fuseAfter_le (head : Lexeme) (rest : List Lexeme) :
    (fuseAfter head rest).length ≤ rest.length + 1 := by
  induction rest generalizing head with
  | nil => exact le_rfl
  | cons right others ih =>
    rw [fuseAfter]
    split_ifs
    · exact (ih _).trans (Nat.le_succ _)
    · exact Nat.succ_le_succ (ih right)

theorem fuseAfter_eq_self_iff (head : Lexeme) (rest : List Lexeme) :
    fuseAfter head rest = head :: rest ↔ Apart (head :: rest) := by
  induction rest generalizing head with
  | nil => simp [fuseAfter, Apart]
  | cons right others ih =>
    rw [fuseAfter, Apart, List.isChain_cons_cons]
    split_ifs with merge
    · -- Two lexemes became one, and no later ones become more again.
      constructor
      · intro same
        have fewer := length_fuseAfter_le ⟨.punct, head.text ++ right.text⟩ others
        rw [same, List.length_cons, List.length_cons] at fewer
        omega
      · intro apart
        exact absurd merge apart.1
    · rw [List.cons_inj_right, ih]
      exact (and_iff_right merge).symm

/-- Joined lexemes are read as they were exactly if they are apart. -/
theorem fuse_eq_self_iff (lexemes : List Lexeme) : fuse lexemes = lexemes ↔ Apart lexemes := by
  cases lexemes with
  | nil => simp [fuse, Apart]
  | cons first rest => exact fuseAfter_eq_self_iff first rest

end Lexeme

/-- What is read in front of a barrier is read at the end, too. -/
theorem Scan.Reads.end_of_barrier {text ahead : List Char} (barrier : Scan.isBarrier c)
    (reads : Scan.Reads text lexemes (c :: ahead)) : Scan.Reads text lexemes [] := by
  obtain ⟨pieces, joins, cuts, same⟩ := reads
  exact ⟨pieces, joins, Scan.cuts_of_barrier barrier cuts Scan.closes_nil, same⟩

/-- The tokens of a text are joined to a text that has tokens. These are the same in kind and text
exactly if among the first no two colons are neighbours, no point follows one or two points, and no
`>` follows a minus. -/
theorem joined_tokens_read_again {text : List Char} {tokens : List Token}
    (h : tokenize text = .ok tokens) :
    ∃ again, tokenize (Lexeme.join (tokens.map (·.toLexeme))).toList = .ok again ∧
      again.map (·.toLexeme) = Lexeme.fuse (tokens.map (·.toLexeme)) ∧
      (again.map (·.toLexeme) = tokens.map (·.toLexeme) ↔
        ∀ front left right behind, tokens = front ++ left :: right :: behind →
          ¬(left.kind = .punct ∧ right.kind = .punct ∧
            (left.text, right.text) ∈ [(".", "."), ("..", "."), (":", ":"), ("-", ">")])) := by
  have isToken := (Scan.reads_iff_tokenize.mpr ⟨tokens, h, rfl⟩).isToken
  have reads := (Lexeme.reads_join isToken []).end_of_barrier (by decide)
  obtain ⟨again, tokenized, same⟩ := Scan.reads_iff_tokenize.mp reads
  refine ⟨again, tokenized, same, ?_⟩
  rw [same, Lexeme.fuse_eq_self_iff, Lexeme.Apart, List.isChain_map,
    List.isChain_iff_forall_rel_of_append_cons_cons]
  constructor
  · intro apart front left right behind whole
    exact apart whole
  · intro apart left right front behind whole
    exact apart front left right behind whole

/-- Two colons that a blank keeps apart are joined to one mark. -/
theorem joined_tokens_read_again_colons :
    tokenize "a: :b".toList = .ok [⟨⟨.ident, "a"⟩, 0, 1⟩, ⟨⟨.punct, ":"⟩, 1, 2⟩,
      ⟨⟨.punct, ":"⟩, 3, 4⟩, ⟨⟨.ident, "b"⟩, 4, 5⟩] ∧
    ∃ again, tokenize (Lexeme.join [⟨.ident, "a"⟩, ⟨.punct, ":"⟩, ⟨.punct, ":"⟩,
        ⟨.ident, "b"⟩]).toList = .ok again ∧
      again.map (·.toLexeme) = [⟨.ident, "a"⟩, ⟨.punct, "::"⟩, ⟨.ident, "b"⟩] := by
  have tokenized : tokenize "a: :b".toList = .ok [⟨⟨.ident, "a"⟩, 0, 1⟩, ⟨⟨.punct, ":"⟩, 1, 2⟩,
      ⟨⟨.punct, ":"⟩, 3, 4⟩, ⟨⟨.ident, "b"⟩, 4, 5⟩] := by decide +kernel
  obtain ⟨again, joined, fused, -⟩ := joined_tokens_read_again tokenized
  exact ⟨tokenized, again, joined, fused⟩

end ActorGlue
