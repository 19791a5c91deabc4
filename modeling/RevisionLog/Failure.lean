import RevisionLog.Fault
import RevisionLog.NodeId
import RevisionLog.Revision

/-!
# Failures

A failure is why a question to a log has no answer. It is one of three kinds: the caller named a
revision that the log does not have, the stored data is damaged, or a file cannot be read. Faults
of reading are sorted into the last two by `Failure.isCorruption`: since logs only grow, a file
that ends too early or does not decode is damaged. A visitor that gives up during an iteration is
a failure of its own.
-/

namespace RevisionLog

/-- A revision or range that a log does not have. -/
structure InvalidRevision where
  /-- A wording that replaces the usual one. -/
  wording : Option String := none
  node : Option NodeId := none
  revision : Option Revision := none
  /-- The first and the last revision that would be valid. -/
  range : Option (Revision × Revision) := none
  deriving DecidableEq

namespace InvalidRevision

/-- No revision of this number. -/
def ofRevision (revision : Revision) : InvalidRevision := { revision := some revision }

/-- No revision of this id. -/
def ofNode (node : NodeId) : InvalidRevision := { node := some node }

/-- A number outside a range. -/
def outOfRange (revision first last : Revision) : InvalidRevision :=
  { revision := some revision, range := some (first, last) }

/-- The text for a revision and the range that it is not from. -/
def describe (revision : Revision) : Option (Revision × Revision) → String
  | none => revision.describe
  | some (first, last) => s!"{revision.describe} is not from [{first}..{last}]"

/-- The wording: what identifies the revision, id first. -/
def message (invalid : InvalidRevision) : String :=
  match invalid.wording with
  | some wording => wording
  | none => " ".intercalate
    ((invalid.node.map fun node => "Revision:" ++ Hex.toString node.shortHex).toList ++
      (invalid.revision.map fun revision => describe revision invalid.range).toList)

end InvalidRevision

/-- What was being attempted when a file failed. -/
inductive Attempt
  | openIndex
  | openData
  | readIndex
  | readRecord (revision : Int)
  | readNode (revision : Nat)
  | readContent (revision : Nat)
  | locateChunk (revision : Nat)
  | readPatch (revision : Nat)
  | applyPatch (revision : Nat)
  | rewind
  | readMetadata (revision : Revision)
  deriving DecidableEq

/-- The wording of an attempt that failed. -/
def Attempt.message : Attempt → String
  | openIndex => "cannot open revlog index"
  | openData => "cannot open revlog data"
  | readIndex => "cannot read revlog index"
  | readRecord revision => s!"cannot read record {revision}"
  | readNode revision => s!"cannot read node of revision {revision}"
  | readContent revision => s!"cannot read revision {revision}"
  | locateChunk revision => s!"cannot locate content of revision {revision}"
  | readPatch revision => s!"cannot read patch of revision {revision}"
  | applyPatch revision => s!"cannot apply patch of revision {revision}"
  | rewind => "cannot rewind content"
  | readMetadata revision => s!"bad metadata in revision {revision}"

/-- Why a question to a log has no answer. -/
inductive Failure
  /-- The log does not have the revision. -/
  | invalidRevision (invalid : InvalidRevision)
  /-- The file at `path` had a fault. -/
  | file (path : String) (attempt : Attempt) (fault : Fault)
  /-- The patch of a revision is based on something other than an earlier revision. Where this is
  not `guarded` against, an inline log looks for the record of the parent although it has no place
  for it, and the process breaks down instead of answering. -/
  | deltaParent (path : String) (revision : Nat) (parent : Int) (guarded : Bool)
  /-- The metadata of a revision names its source by something other than a node id. -/
  | copyRevision (path : String) (revision : Revision) (fault : NodeId.Fault)
  /-- A chunk starts with a byte that names no compression. -/
  | unknownCompression (path : String) (revision : Nat) (header : UInt8)
  /-- The visitor gave up at a revision, for a reason of its own. -/
  | visitor (revision : Nat) (reason : String)
  deriving DecidableEq

/-- Whether a fault is in the stored bytes, and not in reaching them. -/
def Fault.isCorruption (fault : Fault) : Bool :=
  match fault.kind with
  | .unexpectedEnd | .invalidData | .invalidInput => true
  | .isDirectory | .notDirectory => false

namespace Failure

/-- Whether the failure is due to damaged data. -/
def isCorruption : Failure → Bool
  | file _ _ fault => fault.isCorruption
  | deltaParent _ _ _ guarded => guarded
  | copyRevision .. | unknownCompression .. => true
  | invalidRevision _ | visitor .. => false

/-- Whether the failure is due to the caller's choice of revision. -/
def isInvalidArgument : Failure → Bool
  | invalidRevision _ => true
  | _ => false

/-- The wording of damage to a file. -/
def corruption (path message : String) : String :=
  s!"{Text.quoted path}: corrupt revlog: {message}"

/-- The wording of a failure. -/
def message : Failure → String
  | invalidRevision invalid => invalid.message
  | file path attempt fault =>
    if fault.isCorruption then corruption path s!"{attempt.message}: {fault.message}"
    else s!"{Text.quoted path}: {attempt.message}"
  | deltaParent path revision parent _ =>
    corruption path s!"revision {revision} has delta parent {parent}"
  | copyRevision path revision fault =>
    corruption path s!"bad copy revision in revision {revision}: {fault.message}"
  | unknownCompression path revision header =>
    s!"{Text.quoted path}: unknown compression header 0x{Hex.toString (Hex.pair header)} " ++
      s!"at revision {revision}"
  | visitor revision _ => s!"inspector failed at revision {revision}"

end Failure

end RevisionLog
