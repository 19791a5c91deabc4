import RevisionLog.Failure
import RevisionLog.Record

/-!
# Outlines

An outline is what is kept of an index: its header and, for each revision, where its content lies
and what its base is. `Outline.readIndex` reads it from the records one after another, checking
that lengths and bases are possible and that the last record ends with the data. An index that is
missing or cannot be read has an outline without revisions, whose status tells why.
-/

namespace RevisionLog

/-- What is kept of a record. -/
structure Entry where
  /-- In an inline log, where the record starts in the index; otherwise where the chunk starts in
  the data file. -/
  offset : Nat
  base : Nat
  deriving DecidableEq

/-- How reading the index went. -/
inductive Status
  /-- The index does not exist or is empty. -/
  | missing
  /-- The whole index was read. -/
  | loaded
  /-- The index is damaged. -/
  | corrupt (reason : Failure)
  /-- The index cannot be read, for a reason other than its content. -/
  | unreadable (reason : Failure)
  deriving DecidableEq

/-- What is kept of an index. -/
structure Outline where
  header : Header
  entries : List Entry
  status : Status
  deriving DecidableEq

namespace Outline

/-- The outline of a log without revisions. -/
def empty (status : Status) : Outline := ⟨{}, [], status⟩

/-- The number of revisions. -/
def count (outline : Outline) : Nat := outline.entries.length

/-- Reads the record of a revision behind its offset field, whose offset is given. In an inline
log the chunk is passed over as well, and the offset does not count the records before it. The base
is compared with the revision as a word, so an index has at most `2 ^ 31` records. That word is also
what faults name the revision by. -/
def readEntry (inline : Bool) (revision offset : Nat) : Buffer.Action Entry := do
  let length ← Buffer.int32
  let _ ← Buffer.int32
  let base ← Buffer.int32
  if length < 0 then throw (.negativeChunk (.ofNat revision))
  else if base < 0 ∨ Int32.ofNat revision < base then
    throw (.baseOutOfRange base (.ofNat revision))
  else
    Buffer.skip (44 + if inline then length.toInt.toNat else 0)
    return ⟨offset + (if inline then Record.size * revision else 0), base.toInt.toNat⟩

theorem advances_readEntry (inline : Bool) (revision offset : Nat) :
    Buffer.Advances 12 (readEntry inline revision offset) := by
  refine Buffer.advances_int32.bind fun _ => (Buffer.advances_int32.bind fun _ =>
    (Buffer.advances_int32.bind (n := 0) fun _ => ?_))
  split
  · exact Buffer.advances_throw 0 _
  · split
    · exact Buffer.advances_throw 0 _
    · exact ((Buffer.advances_skip _).mono (Nat.zero_le _)).bind fun _ => Buffer.advances_pure _

/-- Reads the records from a revision on, the first behind its offset field. -/
def readEntries (inline : Bool) (revision offset : Nat) : Buffer.Action (List Entry) := fun buffer =>
  match _first : readEntry inline revision offset buffer with
  | .error fault => .error fault
  | .ok (entry, behind) =>
    if behind.isEmpty then .ok ([entry], behind)
    else
      match _next : Buffer.uint64 behind with
      | .error fault => .error fault
      | .ok (word, next) =>
        match readEntries inline (revision + 1) (word.toNat / 65536) next with
        | .error fault => .error fault
        | .ok (entries, last) => .ok (entry :: entries, last)
termination_by buffer => buffer.left
decreasing_by
  have := advances_readEntry _ _ _ _first
  have := Buffer.advances_uint64 _next
  simp only [Buffer.isEmpty, decide_eq_true_eq] at *
  simp only [Buffer.left] at *
  omega

/-- Reads an index that is not empty. The first offset field holds the header. -/
def readIndex : Buffer.Action (Header × List Entry) := do
  let header ← Header.parse (← Buffer.int32)
  if header.version ≠ .ng then throw .indexVersion
  else
    Buffer.skip 4
    return (header, ← readEntries header.isInline 0 0)

end Outline

end RevisionLog
