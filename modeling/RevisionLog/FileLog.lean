import RevisionLog.Log.Iterate
import RevisionLog.Metadata

/-!
# File logs

A file log is the log of one tracked file. The texts of its revisions may start with metadata,
which `FileLog.content` leaves out and which the questions about copies read.
-/

namespace RevisionLog

/-- The log of a tracked file. -/
structure FileLog extends Log where
  /-- The name of the file in the repository. -/
  path : String

/-- A file log whose outline may still have to be read. -/
structure FileHandle extends Handle where
  /-- The name of the file in the repository. -/
  path : String

/-- The file log with its outline, which is read now if it has not been. -/
def FileHandle.fileLog (file : FileHandle) (disk : Disk) : FileLog := ⟨file.log disk, file.path⟩

namespace FileLog

/-- The handle that remembers the outline. -/
def fileHandle (file : FileLog) : FileHandle := ⟨file.handle, file.path⟩

/-- Whether the file was ever known. -/
def isKnown (file : FileLog) : Bool := 0 < file.count

/-- The number of the last revision, `Revision.none` if there is none. -/
def last (file : FileLog) : Revision := Int32.ofInt (file.count - 1)

/-- The revision with a node id. -/
def revision? (file : FileLog) (disk : Disk) (node : NodeId) :
    Except Failure (Option Revision) := do
  let revision ← file.find disk node
  return if revision = .bad then none else some revision

/-- The metadata at the start of the text of a revision. -/
def metadataOf (file : FileLog) (revision : Revision) (text : Bytes) : Except Failure Metadata :=
  (Metadata.parse text).mapError (.file file.indexFile (.readMetadata revision))

/-- The metadata of a revision. -/
def metadata (file : FileLog) (disk : Disk) (revision : Revision) : Except Failure Metadata := do
  file.metadataOf revision (← file.toLog.content disk revision)

/-- The text of a revision without its metadata. -/
def content (file : FileLog) (disk : Disk) (revision : Revision) : Except Failure Bytes := do
  let text ← file.toLog.content disk revision
  return text.drop (← file.metadataOf revision text).contentOffset

/-- Whether a revision was copied from elsewhere. -/
def isCopy (file : FileLog) (disk : Disk) (revision : Revision) : Except Failure Bool :=
  return (← file.metadata disk revision).copySource.isSome

/-- The path that a revision was copied from. -/
def copySource (file : FileLog) (disk : Disk) (revision : Revision) :
    Except Failure (Option String) :=
  return (← file.metadata disk revision).copySource

/-- The id of the revision that a revision was copied from, in the log of that file. -/
def copyRevision (file : FileLog) (disk : Disk) (revision : Revision) :
    Except Failure (Option NodeId) := do
  match (← file.metadata disk revision).copyRevision with
  | none => return none
  | some text =>
    return some (← (NodeId.ofHex (Text.utf8 text)).mapError (.copyRevision file.indexFile revision))

/-- Visits the records from `start` to `stop`, as `Log.iterate` does without content. -/
def history {σ : Type} (file : FileLog) (disk : Disk) (start stop : Revision)
    (visit : Record → σ → Except String Unit × σ) (state : σ) : Except Failure Unit × σ :=
  file.iterate disk start stop false ⟨visit, fun record state => .done (visit record state)⟩ state

/-- The revision of the change log that a revision belongs to. -/
def changeset (file : FileLog) (disk : Disk) (revision : Revision) : Except Failure Revision :=
  file.link disk revision

/-- The recorded length of the text with a node id. -/
def length (file : FileLog) (disk : Disk) (node : NodeId) : Except Failure Int32 := do
  match ← file.revision? disk node with
  | none => throw (.invalidRevision (.ofNode node))
  | some revision => file.textLength disk revision

end FileLog

end RevisionLog
