import RevisionLog.Client
import RevisionLog.Log.Content

/-!
# Iterations

An iteration visits a range of revisions in order, with or without their texts. A text is made from
that of the revision before it where this is what its patch applies to, so a log without general
deltas is read from the base of the first revision on, and what comes before the range is not
visited. A visitor is a client of the text it is given; the reader that it leaves may serve as the
base of the next text. `Log.run` is everything that happens in an iteration, the visits included,
and `Log.iterate` what the caller gets of it.
-/

namespace RevisionLog

/-- What is told of each revision in turn. A visitor has a state, and may give up with a reason. -/
structure Visitor (σ : Type) where
  /-- A visit without the text. -/
  record : Record → σ → Except String Unit × σ
  /-- A visit with the text. -/
  content : Record → σ → Client (Except String Unit × σ)

/-- What a visitor is given when it is called. -/
structure Visit where
  record : Record
  /-- The reader of the text, if the visit is one with the text. -/
  text : Option Reader
  deriving DecidableEq

/-- What happens in an iteration: the visits in order, how it ends, and the last state of the
visitor. -/
structure Run (σ : Type) where
  visits : List Visit
  result : Except Failure Unit
  state : σ

namespace Run

variable {σ : Type}

/-- An iteration that ends without a visit. -/
def stop (result : Except Failure Unit) (state : σ) : Run σ := ⟨[], result, state⟩

/-- An iteration with one more visit before all others. -/
def after (visit : Visit) (run : Run σ) : Run σ := { run with visits := visit :: run.visits }

end Run

namespace Log

/-- Whether there is a place where the record of a revision would be. An inline log knows the places
of its own records only, and a log with a data file has one for every number. -/
def hasPlace (log : Log) (revision : Int) : Bool :=
  !log.isInline || (0 ≤ revision && revision < log.count)

/-- The failure to read the record of a negative revision from an index without chunks. The position
of the record wraps around to a word past the end of any file. -/
def strayRecord (log : Log) (files : Files) (revision : Int) : Failure :=
  .file log.indexFile (.readRecord revision)
    (.seekPastEnd (UInt64.ofInt (Record.size * revision)).toNat files.index.length)

/-- The text of a delta parent. That the parent is an earlier revision is not checked. -/
def parentText (log : Log) (files : Files) (record : Record) (parent : Int) :
    Except Failure Reader :=
  if log.hasPlace parent then
    if parent < 0 then .error (log.strayRecord files parent) else log.rebuild files parent.toNat
  else .error (.deltaParent log.indexFile record.revision parent false)

/-- The text that the patch of a record applies to: what is left of the previous revision, if that
is the delta parent. -/
def baseAfter (log : Log) (files : Files) (record : Record) (previous : Option (Nat × Reader)) :
    Except Failure Reader :=
  let parent := log.deltaParent record
  match previous with
  | some (revision, text) =>
    if revision = parent then .ok text else log.parentText files record parent
  | none => log.parentText files record parent

/-- The text of a record, made from that of the previous revision if its patch applies to it. -/
def contentAfter (log : Log) (files : Files) (record : Record) (previous : Option (Nat × Reader)) :
    Except Failure Reader := do
  let chunk ← log.chunk files record
  if record.isLiteral then return chunk
  else log.patched record chunk (← log.baseAfter files record previous)

/-- The record of a revision and its text, read on from what is left of the previous revision. -/
def readAfter (log : Log) (files : Files) (revision : Nat) (previous : Option (Nat × Reader)) :
    Except Failure (Record × Reader) := do
  let record ← log.recordIn files.index revision
  return (record, ← log.contentAfter files record previous)

/-- The revisions of a range, and whether the log has them all. -/
def checkRange (log : Log) (start stop : Revision) : Except Failure (Nat × Nat) :=
  let last : Int := log.count - 1
  let first := start.resolve log.count
  let final := stop.resolve log.count
  if ¬(0 ≤ first ∧ first ≤ last) then
    .error (.invalidRevision { InvalidRevision.outOfRange (.ofInt first) 0 (.ofInt last) with
      wording := s!"Bad left range boundary {first} in [0..{last}]" })
  else if ¬(first ≤ final ∧ final ≤ last) then
    .error (.invalidRevision
      { InvalidRevision.outOfRange (.ofInt final) (.ofInt first) (.ofInt last) with
        wording := s!"Bad right range boundary {final} in [{first}..{last}]" })
  else .ok (first.toNat, final.toNat)

/-- Visits some revisions without their texts. -/
def visitRecords {σ : Type} (log : Log) (files : Files) (visitor : Visitor σ) :
    List Nat → σ → Run σ
  | [], state => .stop (.ok ()) state
  | revision :: revisions, state =>
    match log.recordIn files.index revision with
    | .error failure => .stop (.error failure) state
    | .ok record =>
      .after ⟨record, none⟩ <|
        match visitor.record record state with
        | (.error reason, state) => .stop (.error (.visitor revision reason)) state
        | (.ok _, state) => log.visitRecords files visitor revisions state

/-- Visits some revisions with their texts, but passes over those before `first`. -/
def visitContents {σ : Type} (log : Log) (files : Files) (visitor : Visitor σ) (first : Nat) :
    List Nat → Option (Nat × Reader) → σ → Run σ
  | [], _, state => .stop (.ok ()) state
  | revision :: revisions, previous, state =>
    match log.readAfter files revision previous with
    | .error failure => .stop (.error failure) state
    | .ok (record, text) =>
      if revision < first then
        log.visitContents files visitor first revisions (some (revision, text)) state
      else
        match Reader.reset text with
        | (.error fault, _) => .stop (.error (.file log.contentFile .rewind fault)) state
        | (.ok _, text) =>
          .after ⟨record, text⟩ <|
            match (visitor.content record state).run text with
            | ((.error reason, state), _) => .stop (.error (.visitor revision reason)) state
            | ((.ok _, state), text) =>
              log.visitContents files visitor first revisions (some (revision, text)) state

/-- The revision from which on texts are made when that of `first` is wanted: its base, or itself if
patches apply to any base. -/
def readFrom (log : Log) (first : Nat) : Nat :=
  if log.isGeneralDelta then first else (log.outline.entries[first]?.map Entry.base).getD first

/-- What happens when the revisions from `start` to `stop` are visited in order. -/
def run {σ : Type} (log : Log) (disk : Disk) (start stop : Revision) (withContent : Bool)
    (visitor : Visitor σ) (state : σ) : Run σ :=
  if log.count = 0 then .stop (.ok ()) state
  else
    match do let range ← log.checkRange start stop
             return (range, ← log.openFiles disk) with
    | .error failure => .stop (.error failure) state
    | .ok ((first, last), files) =>
      if withContent then
        let base := log.readFrom first
        log.visitContents files visitor first (List.range' base (last + 1 - base)) none state
      else log.visitRecords files visitor (List.range' first (last + 1 - first)) state

/-- Visits the revisions from `start` to `stop` in order, either of which may be `Revision.tip`. A
log without revisions has nothing to visit, whatever the range. -/
def iterate {σ : Type} (log : Log) (disk : Disk) (start stop : Revision) (withContent : Bool)
    (visitor : Visitor σ) (state : σ) : Except Failure Unit × σ :=
  let run := log.run disk start stop withContent visitor state
  (run.result, run.state)

end Log

end RevisionLog
