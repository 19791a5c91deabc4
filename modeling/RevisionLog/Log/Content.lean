import RevisionLog.Log
import RevisionLog.Patch

/-!
# Content

The chunk of a revision is its text or a patch, stored plainly or compressed. The text of a patched
revision is made by walking back along the parents of its patches to a revision with a full text
(`Log.chain`), and then applying the patches in turn (`Log.rebuild`). A chain goes to ever earlier
revisions, and anything else is an error.
-/

namespace RevisionLog

/-- The open files of a log. Whether the data file could be opened matters only once it is read. -/
structure Files where
  index : Buffer
  data : Except Failure Buffer

namespace Log

/-- Opens the files of a log for one question. -/
def openFiles (log : Log) (disk : Disk) : Except Failure Files := do
  return ⟨← log.openIndex disk, log.openData disk⟩

/-- The file that holds the chunks. -/
def contentFile (log : Log) : String := if log.isInline then log.indexFile else log.dataFile

/-- The bytes of the chunk of a record as they are stored. -/
def storedChunk (log : Log) (files : Files) (record : Record) : Except Failure Buffer := do
  let located (window : Except Fault Buffer) : Except Failure Buffer :=
    window.mapError (.file log.contentFile (.locateChunk record.revision))
  let length := record.chunkLength.toInt.toNat
  if log.isInline then
    located (files.index.window (log.recordPosition record.revision + Record.size) length)
  else located ((← files.data).window record.offset length)

/-- The chunk of a record, by its first byte: `x` starts a compressed stream, `u` stands before
plain bytes, and a NUL is the first of the plain bytes, as is any other byte if that is allowed. An
empty chunk is plain. -/
def chunk (log : Log) (files : Files) (record : Record) : Except Failure Reader := do
  let stored ← log.storedChunk files record
  match stored.first? with
  | none => return .plain stored
  | some 0x78 => return .inflating (.ofBytes stored.slice)
  | some 0x75 =>
    let behind ← (stored.window 1 (stored.length - 1)).mapError
      (.file log.contentFile (.locateChunk record.revision))
    return .plain behind
  | some 0 => return .plain stored
  | some header =>
    if log.strictCompression then
      throw (.unknownCompression log.contentFile record.revision header)
    else return .plain stored

/-- The revision to whose text the patch of a record applies. -/
def deltaParent (log : Log) (record : Record) : Int :=
  if log.isGeneralDelta then record.base.toInt else record.revision - 1

/-- The records that the text of a revision is made from, given those after it: the full text and
the patches, earliest first. -/
def chain (log : Log) (files : Files) (revision : Nat) (later : List Record) :
    Except Failure (Record × List Record) :=
  match log.recordIn files.index revision with
  | .error failure => .error failure
  | .ok record =>
    if record.isLiteral then .ok (record, later)
    else
      let parent := log.deltaParent record
      if _earlier : 0 ≤ parent ∧ parent < revision then
        log.chain files parent.toNat (record :: later)
      else .error (.deltaParent log.indexFile revision parent true)
termination_by revision
decreasing_by omega

/-- The text that the patch of a record makes of a base. -/
def patched (log : Log) (record : Record) (chunk base : Reader) : Except Failure Reader := do
  let patch ← (Patch.read chunk).1.mapError (.file log.contentFile (.readPatch record.revision))
  let text ← (Patch.apply record.textLength patch base).1.mapError
    (.file log.contentFile (.applyPatch record.revision))
  return .ofBytes text

/-- The text that is made of a full text by the patches of later records in turn. -/
def replay (log : Log) (files : Files) (text : Reader) (later : List Record) :
    Except Failure Reader :=
  later.foldlM (fun text record => do log.patched record (← log.chunk files record) text) text

/-- The text of a revision, made from its chain. -/
def rebuild (log : Log) (files : Files) (revision : Nat) : Except Failure Reader := do
  let (literal, later) ← log.chain files revision []
  log.replay files (← log.chunk files literal) later

/-- The full text of a revision. -/
def content (log : Log) (disk : Disk) (revision : Revision) : Except Failure Bytes := do
  let revision ← log.check revision
  let text ← log.rebuild (← log.openFiles disk) revision
  (Reader.rest text).1.mapError (.file log.contentFile (.readContent revision))

end Log

end RevisionLog
