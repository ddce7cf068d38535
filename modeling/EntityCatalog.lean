import EntityCatalog.Entity.Preparation
import EntityCatalog.Graph.Columns
import EntityCatalog.Memo
import EntityCatalog.Registry
import EntityCatalog.Snapshot.Codec
import EntityCatalog.Snapshot.Format
import EntityCatalog.Proofs.Entity.Lineage
import EntityCatalog.Proofs.Entity.Inheritance
import EntityCatalog.Proofs.Reference.Steady
import EntityCatalog.Proofs.Relation.Verdict
import EntityCatalog.Proofs.Relation.Paired
import EntityCatalog.Proofs.Entity.Frame
import EntityCatalog.Proofs.Relation.Agreement
import EntityCatalog.Proofs.Relation.Run
import EntityCatalog.Proofs.Entity.Linked
import EntityCatalog.Proofs.Relation.Carrying
import EntityCatalog.Proofs.Entity.Linking
import EntityCatalog.Proofs.Relation.Cleared
import EntityCatalog.Proofs.Relation.Ownership
import EntityCatalog.Proofs.Resolution.Sound
import EntityCatalog.Proofs.Resolution.Relations
import EntityCatalog.Proofs.Graph.Resolved
import EntityCatalog.Proofs.Graph.Ownership
import EntityCatalog.Proofs.Graph.Reciprocity
import EntityCatalog.Proofs.Entity.Embedding
import EntityCatalog.Proofs.Entity.Reordered
import EntityCatalog.Proofs.Entity.Resemblance
import EntityCatalog.Proofs.Entity.Defaults
import EntityCatalog.Proofs.Relation.Reordered
import EntityCatalog.Proofs.Graph.Order
import EntityCatalog.Proofs.Property.Hints
import EntityCatalog.Proofs.Relation.Hints
import EntityCatalog.Proofs.Graph.Hints
import EntityCatalog.Proofs.Relation.Lone
import EntityCatalog.Proofs.Resolution.Plain
import EntityCatalog.Proofs.Resolution.Family
import EntityCatalog.Proofs.Graph.Inverses
import EntityCatalog.Proofs.Resolution.Answered
import EntityCatalog.Proofs.Graph.Answered
import EntityCatalog.Proofs.Entity.Preparation
import EntityCatalog.Proofs.Relation.Facing
import EntityCatalog.Proofs.Graph.Involution
import EntityCatalog.Proofs.Relation.Traversal
import EntityCatalog.Proofs.Entity.Completed
import EntityCatalog.Proofs.Resolution.Completed
import EntityCatalog.Proofs.Graph.Linked
import EntityCatalog.Proofs.Resolution.Respelled
import EntityCatalog.Proofs.Registry.Requests
import EntityCatalog.Proofs.Graph.Lifecycle
import EntityCatalog.Proofs.Json.Numerals
import EntityCatalog.Proofs.Json.Spelling
import EntityCatalog.Proofs.Json.Records
import EntityCatalog.Proofs.Snapshot.Documents
import EntityCatalog.Proofs.Schema.Portable
import EntityCatalog.Proofs.Registry.Documents
import EntityCatalog.Proofs.Relation.Reports
import EntityCatalog.Proofs.Relation.Preserved
import EntityCatalog.Proofs.Entity.Lacking
import EntityCatalog.Proofs.Resolution.Reported
import EntityCatalog.Proofs.Resolution.Located
import EntityCatalog.Proofs.Registry.Broken
import EntityCatalog.Proofs.Decimal.Shortest
import EntityCatalog.Proofs.Decimal.Layout
import EntityCatalog.Proofs.Json.Compact
import EntityCatalog.Proofs.Snapshot.Values
import EntityCatalog.Proofs.Snapshot.Matches
import EntityCatalog.Proofs.Snapshot.Codec
import EntityCatalog.Proofs.Entity.Respelled
import EntityCatalog.Proofs.Property.Respelled
import EntityCatalog.Proofs.Entity.Retouched
import EntityCatalog.Proofs.Graph.Respelled
import EntityCatalog.Proofs.Registry.Dropped
import EntityCatalog.Proofs.Entity.Indexed
import EntityCatalog.Proofs.Graph.Fixpoint
import EntityCatalog.Proofs.Property.Core
import EntityCatalog.Proofs.Resolution.Stemming
import EntityCatalog.Proofs.Graph.Assignable
import EntityCatalog.Proofs.Entity.Effective
import EntityCatalog.Proofs.Resolution.Sourced
import EntityCatalog.Proofs.Graph.Effective
import EntityCatalog.Proofs.Graph.Plain
import EntityCatalog.Proofs.Graph.Fingerprint
import EntityCatalog.Proofs.Relation.Reasons
import EntityCatalog.Proofs.Property.WellFormed
import EntityCatalog.Proofs.Graph.WellFormed
import EntityCatalog.Proofs.Relation.Disputes
import EntityCatalog.Proofs.Relation.Mirrors
import EntityCatalog.Proofs.Registry.Mirrored
import EntityCatalog.Proofs.Graph.References
import EntityCatalog.Proofs.Entity.Offences
import EntityCatalog.Proofs.Graph.Descent
import EntityCatalog.Proofs.Graph.Supplied
import EntityCatalog.Proofs.Registry.Untangled
import EntityCatalog.Proofs.Graph.Flattened
import EntityCatalog.Proofs.Memo.Reentrancy
import EntityCatalog.Proofs.Registry.Evaluated
import EntityCatalog.Proofs.Resolution.Cells
import EntityCatalog.Proofs.Schema.Groups
import EntityCatalog.Proofs.Reference.Followed
import EntityCatalog.Proofs.Relation.Unordered
import EntityCatalog.Proofs.Registry.Circuits
