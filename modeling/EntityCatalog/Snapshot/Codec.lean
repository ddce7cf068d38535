import EntityCatalog.Snapshot.Basic

/-!
# Bytes and fingerprints

A snapshot is stored as bytes and told apart by a fingerprint, the hexadecimal
text of a digest of its bytes.  How bytes are laid out, digested and spelled is
the business of other libraries, so a `Codec` stands for them here: encoder and
decoder may fail with a text of their own, digests and their spelling may not.
-/

namespace EntityCatalog

namespace Snapshot

/-- What turns snapshots into bytes and bytes into fingerprints. -/
structure Codec where
  encode : Snapshot → Except String ByteArray
  decode : ByteArray → Except String Snapshot
  digest : ByteArray → ByteArray
  hexadecimal : ByteArray → String

/-- Why there are no bytes, or why bytes are no snapshot. -/
inductive Failure where
  | serialization (reason : String)
  | deserialization (reason : String)
  deriving DecidableEq, Repr

/-- The text of the failure. -/
def Failure.message : Failure → String
  | .serialization reason => "serialization error: " ++ reason
  | .deserialization reason => "deserialization error: " ++ reason

/-- The bytes of a snapshot. -/
def toBytes (codec : Codec) (snapshot : Snapshot) : Except Failure ByteArray :=
  (codec.encode snapshot).mapError .serialization

/-- The snapshot that some bytes hold. -/
def ofBytes (codec : Codec) (bytes : ByteArray) : Except Failure Snapshot :=
  (codec.decode bytes).mapError .deserialization

/-- The fingerprint of a snapshot. -/
def fingerprint (codec : Codec) (snapshot : Snapshot) :
    Except Failure String := do
  let bytes ← snapshot.toBytes codec
  return codec.hexadecimal (codec.digest bytes)

end Snapshot

/-- The fingerprint of what a graph shows. -/
def Graph.fingerprint (codec : Snapshot.Codec) (graph : Graph) :
    Except Snapshot.Failure String :=
  graph.snapshot.fingerprint codec

end EntityCatalog
