import RevisionLog.Disk
import RevisionLog.Outline
import RevisionLog.Path

/-!
# Logs

A log is an index file and, unless it is inline, a data file. Its outline is read once: by
`Handle.log` at the first question, or by `Handle.open` if the caller wants to know at once whether
the index is sound. Every question reads the files again, so it is asked of a log and a disk. The
questions of this module concern single records and need the index only.

Revisions are numbered by words, and an index of `2 ^ 31` records has more of them than a word can
count. Words wrap around: the number of the last revision, one less than their count, is right even
then (`Revision.resolve`), but the count itself is negative (`Log.searched`).
-/

namespace RevisionLog

/-- The files of a log and how its chunks are to be read. -/
structure Location where
  indexFile : String
  dataFile : String
  /-- Whether a chunk that starts with no known compression header is an error. -/
  strictCompression : Bool
  deriving DecidableEq

/-- How to open a log. -/
structure Options where
  strictCompression : Bool := false
  /-- Whether the index is read on opening, and has to be sound. -/
  strictIndex : Bool := false
  deriving DecidableEq

/-- A log whose outline is known. -/
structure Log extends Location where
  outline : Outline
  deriving DecidableEq

/-- A log whose outline may still have to be read. -/
structure Handle extends Location where
  outline? : Option Outline
  deriving DecidableEq

namespace Location

/-- The location of the log with an index file. -/
def ofIndex (indexFile : String) (options : Options) : Location :=
  ⟨indexFile, Path.dataFile indexFile, options.strictCompression⟩

/-- Opens the index file. -/
def openIndex (location : Location) (disk : Disk) : Except Failure Buffer :=
  (disk.open location.indexFile).mapError (.file location.indexFile .openIndex)

/-- Opens the data file. -/
def openData (location : Location) (disk : Disk) : Except Failure Buffer :=
  (disk.open location.dataFile).mapError (.file location.dataFile .openData)

/-- Reads the outline, which has no revisions where there is no index. -/
def readOutline (location : Location) (disk : Disk) : Except Failure Outline := do
  let index ← location.openIndex disk
  if index.isEmpty then return .empty .missing
  else
    let (header, entries) ←
      (index.readAt 0 Outline.readIndex).mapError (.file location.indexFile .readIndex)
    return ⟨header, entries, .loaded⟩

/-- The outline, without revisions if it cannot be read. -/
def outline (location : Location) (disk : Disk) : Outline :=
  match location.readOutline disk with
  | .ok outline => outline
  | .error failure =>
    .empty (if failure.isCorruption then .corrupt failure else .unreadable failure)

end Location

/-- A log of which nothing has been read. -/
def Handle.ofIndex (indexFile : String) (options : Options) : Handle :=
  ⟨.ofIndex indexFile options, none⟩

/-- Opens a log. With a strict index this reads the outline and fails if that fails. -/
def Handle.open (disk : Disk) (indexFile : String) (options : Options) : Except Failure Handle := do
  let location := Location.ofIndex indexFile options
  if options.strictIndex then return ⟨location, ← location.readOutline disk⟩
  else return ⟨location, none⟩

/-- The log with its outline, which is read now if it has not been. -/
def Handle.log (handle : Handle) (disk : Disk) : Log :=
  ⟨handle.toLocation, handle.outline?.getD (handle.outline disk)⟩

namespace Log

/-- The handle that remembers the outline. -/
def handle (log : Log) : Handle := ⟨log.toLocation, log.outline⟩

/-- The number of revisions. -/
def count (log : Log) : Nat := log.outline.count

/-- The header of the index. -/
def header (log : Log) : Header := log.outline.header

/-- Whether records and chunks share the index file. -/
def isInline (log : Log) : Bool := log.header.isInline

/-- Whether a patch applies to the text of its base. -/
def isGeneralDelta (log : Log) : Bool := log.header.isGeneralDelta

/-- The index of a revision that the log has, `Revision.tip` being the last one. -/
def check (log : Log) (revision : Revision) : Except Failure Nat :=
  let resolved := revision.resolve log.count
  if 0 ≤ resolved ∧ resolved < log.count then .ok resolved.toNat
  else .error (.invalidRevision (.outOfRange revision 0 (Int32.ofInt (log.count - 1))))

/-- Where the record of a revision starts in the index file. -/
def recordPosition (log : Log) (revision : Nat) : Nat :=
  match log.isInline, log.outline.entries[revision]? with
  | true, some entry => entry.offset
  | _, _ => Record.size * revision

/-- The record of a revision, from the open index file. -/
def recordIn (log : Log) (index : Buffer) (revision : Nat) : Except Failure Record :=
  (index.readAt (log.recordPosition revision) (Record.read revision)).mapError
    (.file log.indexFile (.readRecord revision))

/-- The record of a revision. -/
def record (log : Log) (disk : Disk) (revision : Revision) : Except Failure Record := do
  let revision ← log.check revision
  log.recordIn (← log.openIndex disk) revision

/-- The word at an offset of the record of a revision. -/
def field (log : Log) (disk : Disk) (revision : Revision) (offset : Nat) :
    Except Failure Int32 := do
  let revision ← log.check revision
  let index ← log.openIndex disk
  (index.readAt (log.recordPosition revision + offset) Buffer.int32).mapError
    (.file log.indexFile (.readRecord revision))

/-- The length of the chunk of a revision as it is stored. -/
def chunkLength (log : Log) (disk : Disk) (revision : Revision) : Except Failure Int32 :=
  log.field disk revision 8

/-- The recorded length of the text of a revision. -/
def textLength (log : Log) (disk : Disk) (revision : Revision) : Except Failure Int32 :=
  log.field disk revision 12

/-- The revision of the change log that a revision belongs to. -/
def link (log : Log) (disk : Disk) (revision : Revision) : Except Failure Revision :=
  return (← log.record disk revision).link

/-- The parents of a revision. -/
def parents (log : Log) (disk : Disk) (revision : Revision) :
    Except Failure (Revision × Revision) := do
  let record ← log.record disk revision
  return (record.parent1, record.parent2)

/-- The id of a revision. -/
def node (log : Log) (disk : Disk) (revision : Revision) : Except Failure NodeId :=
  return (← log.record disk revision).node

/-- The first of some revisions whose record holds a node id, or `Revision.bad`. -/
def findIn (log : Log) (index : Buffer) (node : NodeId) : List Nat → Except Failure Revision
  | [] => .ok .bad
  | revision :: revisions => do
    let bytes ← (index.readAt (log.recordPosition revision + 32) (Buffer.read 20)).mapError
      (.file log.indexFile (.readNode revision))
    if node.isBytes bytes then return Int32.ofNat revision else log.findIn index node revisions

/-- The revisions that a search looks at, in order. They end at the number of revisions as a word,
which is negative if there are `2 ^ 31`; then no revision is looked at. -/
def searched (log : Log) : List Nat := List.range (Int32.ofNat log.count).toInt.toNat

/-- The first revision with a node id among those that are looked at, or `Revision.bad` if there is
none. -/
def find (log : Log) (disk : Disk) (node : NodeId) : Except Failure Revision := do
  if log.count = 0 then return .bad
  else log.findIn (← log.openIndex disk) node log.searched

end Log

end RevisionLog
