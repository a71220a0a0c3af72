import ActorGlue.Document.Path
import ActorGlue.Value.Number
import ActorGlue.Proofs.Expansion.Isolation
import ActorGlue.Proofs.Expansion.Layout
import ActorGlue.Proofs.Expansion.Rereading
import ActorGlue.Proofs.Machine.History
import ActorGlue.Proofs.Manifest.Attribution
import ActorGlue.Proofs.Machine.SavedBack
import ActorGlue.Proofs.Expansion.ReadBack
import ActorGlue.Proofs.Cbor.Structures
import ActorGlue.Proofs.Glue.Graph
import ActorGlue.Proofs.Interface.Descriptors
import ActorGlue.Proofs.Interface.EntryPoints
import ActorGlue.Proofs.Parse.SpanTree
import ActorGlue.Proofs.Machine.Selection
import ActorGlue.Proofs.Annotation.Numbers
import ActorGlue.Proofs.Content.Identity
import ActorGlue.Proofs.Parse.Groups
import ActorGlue.Proofs.Text.Position
