import ActorGlue.Proofs.Expansion.Files
import ActorGlue.Proofs.Manifest.Digest
import ActorGlue.Proofs.Parse.Generated

/-!
# The layout of a file does not matter

Two texts with the same lexemes, whatever white space and comments stand between them, are refused
for the same kind of fault, or they declare the same program and have diagnostics with the same
codes and severities.
-/

namespace ActorGlue

open Parse

/-- Two expansions that declare the same, with the same glue and the same canonical manifest, and
that have message by message diagnostics of the same codes and severities. -/
structure FileExpansion.Alike (expansion expansion' : FileExpansion) : Prop where
  program : expansion.program.document = expansion'.program.document
  glue : ∀ symbol, (Glue.lower expansion.program symbol).document =
    (Glue.lower expansion'.program symbol).document
  manifest : ∀ symbol timestamp timestamp', ∃ manifest manifest',
    Manifest.build expansion.program (Glue.lower expansion.program symbol) timestamp =
      .ok manifest ∧
    Manifest.build expansion'.program (Glue.lower expansion'.program symbol) timestamp' =
      .ok manifest' ∧ manifest.canonical = manifest'.canonical
  diagnostics : List.Forall₂ (fun diagnostic diagnostic' =>
    List.Forall₂ (fun leaf leaf' => leaf.code = leaf'.code ∧ leaf.severity = leaf'.severity)
      diagnostic.leaves diagnostic'.leaves) expansion.diagnostics expansion'.diagnostics

variable {complaint : Complaint} {text : List Char} {source : Source} {values : List (Item Extent)}
  {left : List Lexeme}

/-- A complaint has the same kind of fault in every source. -/
theorem Source.failure_code (source source' : Source) (ends : complaint ≠ .endless) :
    ∃ error error', source.failure complaint = .rejected error ∧
      source'.failure complaint = .rejected error' ∧ error.fault.code = error'.fault.code := by
  match complaint with
  | .unexpected _ (some _) _ | .unexpected _ none _ | .mismatched _ _ | .unclosed _ _
  | .notTraitPath _ => exact ⟨_, _, rfl, rfl, rfl⟩
  | .endless => exact absurd rfl ends

theorem parseFile_of_error (read : Source.read text = .ok source)
    (h : file source.lexemes = .error complaint) :
    parseFile text = .error (source.failure complaint) := by
  simp only [parseFile, read, Source.run, h, bind, Except.bind]

/-- Two files with the same lexemes that are parsed are expanded alike. -/
theorem Twins.expandFile {t : Twins} (naming : Naming)
    (h : file t.source.lexemes = .ok (values, left)) :
    ∃ expansion expansion', ActorGlue.expandFile naming t.source.text = .ok expansion ∧
      ActorGlue.expandFile naming t.source'.text = .ok expansion' ∧
      expansion.program = expansion'.program ∧
      List.Forall₂ t.Agrees expansion.diagnostics expansion'.diagnostics := by
  have parsed := parseFile_of_ok t.read h
  have parsed' := parseFile_of_ok t.read' (t.lexemes ▸ h)
  have scanned : ∀ lexeme ∈ t.source.lexemes, lexeme.IsScanned := by
    intro lexeme member
    obtain ⟨token, among, rfl⟩ := List.mem_map.mp member
    exact isScanned_of_tokenize (Source.read_eq_ok.mp t.read).1 token among
  obtain ⟨prelude, ahead, whole, -, -, row⟩ := file_eq_ok scanned h
  have expanded := Twins.expandItems naming whole row {}
  simp only [ActorGlue.expandFile, parsed, parsed']
  revert expanded
  generalize ActorGlue.expandItems naming t.source.text {} (values.map (·.map t.source.span)) =
    result
  generalize ActorGlue.expandItems naming t.source'.text {} (values.map (·.map t.source'.span)) =
    result'
  rintro (same | fails)
  · exact ⟨_, _, rfl, rfl, same.program, same.diagnostics⟩
  · contradiction

/-- Two texts with the same lexemes, on which the parser ends, are both refused for the same kind of
fault, or both are parsed and expanded alike. -/
theorem expandFile_ignores_layout (naming : Naming) {text text' : List Char}
    {tokens tokens' : List Token} (h : tokenize text = .ok tokens)
    (h' : tokenize text' = .ok tokens')
    (same : tokens.map (·.toLexeme) = tokens'.map (·.toLexeme))
    (ends : file (tokens.map (·.toLexeme)) ≠ .error .endless) :
    (∃ error error', parseFile text = .error (.rejected error) ∧
      parseFile text' = .error (.rejected error') ∧ error.fault.code = error'.fault.code ∧
      (expandFile naming text).map (·.diagnostics) = .ok [.ofParseError error] ∧
      (expandFile naming text').map (·.diagnostics) = .ok [.ofParseError error']) ∨
    ∃ items items' expansion expansion', parseFile text = .ok items ∧
      parseFile text' = .ok items' ∧ expandFile naming text = .ok expansion ∧
      expandFile naming text' = .ok expansion' ∧
      expansion.Alike expansion' := by
  let t : Twins := ⟨⟨text, tokens.toArray⟩, ⟨text', tokens'.toArray⟩,
    Source.read_eq_ok.mpr ⟨h, rfl⟩, Source.read_eq_ok.mpr ⟨h', rfl⟩, same⟩
  cases ran : file t.source.lexemes with
  | error complaint =>
      left
      have ran' : file t.source'.lexemes = .error complaint := t.lexemes ▸ ran
      have some : complaint ≠ .endless := by
        rintro rfl
        exact ends ran
      obtain ⟨error, error', fails, fails', code⟩ := t.source.failure_code t.source' some
      have parsed : parseFile text = .error (.rejected error) :=
        fails ▸ parseFile_of_error t.read ran
      have parsed' : parseFile text' = .error (.rejected error') :=
        fails' ▸ parseFile_of_error t.read' ran'
      refine ⟨error, error', parsed, parsed', code, ?_, ?_⟩
      · simp only [expandFile, parsed, Except.map]
      · simp only [expandFile, parsed', Except.map]
  | ok found =>
      right
      obtain ⟨values, left⟩ := found
      obtain ⟨expansion, expansion', expanded, expanded', program, agree⟩ :=
        Twins.expandFile naming ran
      refine ⟨_, _, expansion, expansion', parseFile_of_ok t.read ran,
        parseFile_of_ok t.read' (t.lexemes ▸ ran), expanded, expanded', ⟨?_, ?_, ?_, ?_⟩⟩
      · rw [program]
      · rw [program]
        exact fun symbol => rfl
      · intro symbol timestamp timestamp'
        rw [program]
        have proper := Glue.proper_lower expansion'.program symbol
        obtain ⟨manifest, made, here⟩ := Manifest.exists_build _ timestamp proper
        obtain ⟨manifest', made', there⟩ := Manifest.exists_build _ timestamp' proper
        refine ⟨manifest, manifest', made, made', ?_⟩
        rw [Manifest.canonical, Manifest.canonical, here.stable, there.stable]
      · exact agree.imp fun _ _ agrees => agrees.imp fun _ _ leaf => ⟨leaf.code, leaf.severity⟩

theorem expandFile_ignores_layout_gaps :
    (tokenize "#[fvm_payload]struct P<T>;#[fvm_state]struct S;".toList).map
        (·.map (·.toLexeme)) =
      (tokenize "#[fvm_payload] // P\nstruct P < T > ;\n#[ fvm_state ] struct S /* S */ ;".toList).map
        (·.map (·.toLexeme)) ∧
    ∃ expansion expansion',
      expandFile {} "#[fvm_payload]struct P<T>;#[fvm_state]struct S;".toList = .ok expansion ∧
      expandFile {} "#[fvm_payload] // P\nstruct P < T > ;\n#[ fvm_state ] struct S /* S */ ;".toList =
        .ok expansion' ∧ expansion.Alike expansion' := by
  have tight : (tokenize "#[fvm_payload]struct P<T>;#[fvm_state]struct S;".toList).toOption.any
      (fun tokens => (file (tokens.map (·.toLexeme))).toOption.isSome) := by
    decide +kernel
  have loose : (tokenize
      "#[fvm_payload] // P\nstruct P < T > ;\n#[ fvm_state ] struct S /* S */ ;".toList).toOption.any
        (fun _ => true) := by
    decide +kernel
  have lexemes : (tokenize "#[fvm_payload]struct P<T>;#[fvm_state]struct S;".toList).map
        (·.map (·.toLexeme)) =
      (tokenize "#[fvm_payload] // P\nstruct P < T > ;\n#[ fvm_state ] struct S /* S */ ;".toList).map
        (·.map (·.toLexeme)) := by
    decide +kernel
  obtain ⟨tokens, h, parsed⟩ := exists_ok_of_any tight
  obtain ⟨tokens', h', -⟩ := exists_ok_of_any loose
  have same : tokens.map (·.toLexeme) = tokens'.map (·.toLexeme) := by
    rw [h, h'] at lexemes
    exact Except.ok.inj lexemes
  have ends : file (tokens.map (·.toLexeme)) ≠ .error .endless := by
    intro endless
    rw [endless] at parsed
    cases parsed
  refine ⟨lexemes, ?_⟩
  rcases expandFile_ignores_layout {} h h' same ends with
    ⟨error, error', refused, -⟩ | ⟨_, _, expansion, expansion', -, -, expanded⟩
  · have accepted : (parseFile
        "#[fvm_payload]struct P<T>;#[fvm_state]struct S;".toList).toOption.isSome := by
      decide +kernel
    rw [refused] at accepted
    cases accepted
  · exact ⟨expansion, expansion', expanded⟩

end ActorGlue
