import ActorGlue.Document.Canonical
import ActorGlue.Document.Json
import ActorGlue.Document.Shown
import ActorGlue.Glue.Lower
import ActorGlue.Hash.Sha256

/-!
# Interface manifests

The published document of a program and its glue. It carries a digest of everything in it except
the digest itself and the time it was made, in a form that does not depend on the order of fields.
-/

namespace ActorGlue

/-- The fields of a manifest. -/
abbrev Manifest := List (String × Document)

namespace Manifest

/-- The version of the manifest format. -/
def version : String := "0.1"

/-- The fields that the digest does not cover. -/
def volatile : List String := ["timestamp", "digest"]

/-- The fields that the digest covers. -/
def stable (manifest : Manifest) : Manifest :=
  manifest.filter fun field => !volatile.contains field.1

/-- What the digest covers, in canonical order. -/
def canonical (manifest : Manifest) : Document :=
  (Document.object manifest.stable).canonical

def hashedText (manifest : Manifest) : List Char :=
  manifest.canonical.compact

/-- The digest of a manifest, if what it covers can be written. -/
def digest (manifest : Manifest) : Except Text.NumeralFault String :=
  if manifest.canonical.isWritable then
    .ok (Bytes.hex (Sha256.hash (Bytes.ofAscii manifest.hashedText)))
  else .error .unwritable

/-- The manifest of a program with its glue, made at a time, without its digest. -/
def undigested (program : Program) (module : Glue.Module) (timestamp : String) : Manifest :=
  [("fvmgen_version", .text version), ("timestamp", .text timestamp),
    ("program", program.document), ("glue", module.document)]

/-- The manifest of a program with its glue, made at a time. -/
def build (program : Program) (module : Glue.Module) (timestamp : String) :
    Except Text.NumeralFault Manifest :=
  let fields := undigested program module timestamp
  fields.digest.map fun digest => fields ++ [("digest", .text digest)]

/-- Why a manifest is not trusted. -/
inductive Distrust where
  | missing
  | mismatch
  | unwritable (fault : Text.NumeralFault)
  | fieldless
  | unsearchable (kind : String)
  deriving DecidableEq, Repr

/-- The wording of a distrust that has one. -/
def Distrust.message? : Distrust → Option String
  | .missing => some "interface manifest missing digest"
  | .mismatch => some "interface manifest digest mismatch"
  | .unwritable fault => some fault.message
  | .fieldless => none
  | .unsearchable kind => some ("argument of type '" ++ kind ++ "' is not iterable")

/-- Checks that a manifest carries its own digest. -/
def verify (manifest : Manifest) : Except Distrust Unit :=
  match Document.lookup "digest" manifest, manifest.digest with
  | none, _ => .error .missing
  | some _, .error fault => .error (.unwritable fault)
  | some (.text found), .ok digest => if found = digest then .ok () else .error .mismatch
  | some _, .ok _ => .error .mismatch

/-- A text has another one in it. -/
def hasPart (part : List Char) : List Char → Bool
  | [] => part.isEmpty
  | c :: rest => part.isPrefixOf (c :: rest) || hasPart part rest

/-- Checks a document that should be a manifest. What is no object has no digest of its own, also
if the word is in it. -/
def verifyDocument : Document → Except Distrust Unit
  | .object fields => verify fields
  | .list items =>
      .error (if items.any (·.same (.text "digest")) then .fieldless else .missing)
  | .text value =>
      .error (if hasPart "digest".toList value.toList then .fieldless else .missing)
  | document => .error (.unsearchable document.typeName)

/-- The content of the file of a document, if it can be written. -/
def fileText (document : Document) : Except Text.NumeralFault String :=
  if document.isWritable then .ok (String.ofList (document.pretty 0)) else .error .unwritable

/-- The line that reports a written manifest. -/
def exportLine (path : String) : String :=
  "  ✓ Interface manifest exported → " ++ path ++ "\n"

end Manifest

end ActorGlue
