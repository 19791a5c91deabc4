import RevisionLog.Buffer
import RevisionLog.Header
import RevisionLog.NodeId

/-!
# Records

A record describes one revision in 64 bytes of the index: an offset of six bytes, two bytes of
flags, six words (chunk length, text length, base, link and two parents), the node id and twelve
bytes of padding. The offset of revision 0 is always 0, and its place is taken by the header.
`Record.read` decodes the record at the cursor.
-/

namespace RevisionLog

/-- The fixed fields of a revision. -/
structure Record where
  revision : Nat
  /-- Where the chunk starts, counting the bytes of all chunks only. -/
  offset : Nat
  flags : Flags
  /-- The length of the stored chunk, with its compression header. -/
  chunkLength : Int32
  /-- The length of the text, -1 if it has to be computed from a patch. -/
  textLength : Int32
  base : Int32
  link : Int32
  parent1 : Int32
  parent2 : Int32
  node : NodeId
  deriving DecidableEq

namespace Record

/-- The size of a record. -/
def size : Nat := 64

/-- Decodes the record of a revision, and leaves the cursor behind it. -/
def read (revision : Nat) : Buffer.Action Record := do
  let word ← Buffer.uint64
  let chunkLength ← Buffer.int32
  let textLength ← Buffer.int32
  let base ← Buffer.int32
  let link ← Buffer.int32
  let parent1 ← Buffer.int32
  let parent2 ← Buffer.int32
  let node ← Buffer.read 20
  Buffer.skip 12
  if chunkLength < 0 then throw (.negativeRecordChunk chunkLength revision)
  else return {
    revision
    offset := if revision = 0 then 0 else word.toNat / 65536
    flags := ⟨word.toUInt16⟩
    chunkLength, textLength, base, link, parent1, parent2
    node := (NodeId.ofBytes node).toOption.getD .null }

/-- Whether the stored chunk is the text itself, and not a patch. -/
def isLiteral (record : Record) : Bool := record.base.toInt = record.revision

end Record

end RevisionLog
