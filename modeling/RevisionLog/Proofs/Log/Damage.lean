import RevisionLog.Log.Iterate
import RevisionLog.Proofs.Corruption

/-!
# What damage is reported as

Damage to the files of a log is reported as one of a few failures, and each of them names the file
that is damaged (`Log.Damage`). What a log makes of its open files, be it a record, a chunk or a
text, fails only in this way, or because the data file could not be opened: it fails by any kind of
failure that these belong to (`Log.Covers`). An iteration that goes on from the previous revision can
fail in one more way, by looking for a delta parent that has no place (`Log.failsBy_readAfter`). A
negative delta parent has a place in a log with a data file, but no record is ever found there.
-/

namespace RevisionLog

open Outcome (FailsBy failsBy_ok failsBy_error)

/-- The failure came of reading the files, and not of the question or the visitor. -/
def Failure.OfReading : Failure → Prop
  | .invalidRevision _ | .visitor .. => False
  | .file .. | .deltaParent .. | .copyRevision .. | .unknownCompression .. => True

theorem ofReading_of_mapError {α : Type} {outcome : Except Fault α} {path : String}
    {attempt : Attempt} {failure : Failure}
    (failed : outcome.mapError (.file path attempt) = .error failure) : failure.OfReading := by
  cases outcome with
  | error fault =>
    cases failed
    trivial
  | ok value => cases failed

/-- The record of a delta parent was looked for where no record can be. The process breaks down then
and does not answer. -/
def Failure.IsBreakdown : Failure → Prop
  | .deltaParent _ _ _ guarded => guarded = false
  | _ => False

theorem Failure.IsBreakdown.ofReading {failure : Failure} (broken : failure.IsBreakdown) :
    failure.OfReading := by
  cases failure <;> trivial

namespace Log

/-- The file that an attempt is made on. -/
def fileOf (log : Log) : Attempt → String
  | .openIndex | .readIndex | .readRecord _ | .readNode _ | .readMetadata _ => log.indexFile
  | .openData => log.dataFile
  | .readContent _ | .locateChunk _ | .readPatch _ | .applyPatch _ | .rewind => log.contentFile

/-- The failures that damage to the files of a log is reported as. -/
inductive Damage (log : Log) : Failure → Prop
  | file (attempt : Attempt) {fault : Fault} (corrupt : fault.IsCorrupt) :
      Damage log (.file (log.fileOf attempt) attempt fault)
  | deltaParent (revision : Nat) (parent : Int) :
      Damage log (.deltaParent log.indexFile revision parent true)
  | copyRevision (number : Revision) (fault : NodeId.Fault) :
      Damage log (.copyRevision log.indexFile number fault)
  | unknownCompression (revision : Nat) (header : UInt8) :
      Damage log (.unknownCompression log.contentFile revision header)

theorem Damage.isCorrupt {log : Log} {failure : Failure} (damage : log.Damage failure) :
    failure.IsCorrupt := by
  cases damage with
  | file attempt corrupt => exact corrupt
  | deltaParent | copyRevision | unknownCompression => rfl

theorem Damage.ofReading {log : Log} {failure : Failure} (damage : log.Damage failure) :
    failure.OfReading := by
  cases damage <;> trivial

/-- The data file could be opened, if there is one. -/
def Readable (log : Log) (files : Files) : Prop :=
  log.isInline = false → ∃ data, files.data = .ok data

/-- The kind of failures includes damage, and what kept the data file from being opened. -/
structure Covers (log : Log) (files : Files) (kind : Failure → Prop) : Prop where
  damage : ∀ ⦃failure⦄, log.Damage failure → kind failure
  data : log.isInline = false → FailsBy kind files.data

theorem covers_of_readable {log : Log} {files : Files} {kind : Failure → Prop}
    (damage : ∀ ⦃failure⦄, log.Damage failure → kind failure) (readable : log.Readable files) :
    log.Covers files kind := by
  refine ⟨damage, fun split => ?_⟩
  obtain ⟨data, opened⟩ := readable split
  rw [opened]
  exact failsBy_ok data

/-- Whatever opening the data file comes to, only reading fails. -/
theorem covers_of_openFiles {log : Log} {disk : Disk} {files : Files}
    (opened : log.openFiles disk = .ok files) : log.Covers files Failure.OfReading := by
  refine ⟨fun _ damage => damage.ofReading, fun _ failure failed => ?_⟩
  obtain ⟨index, -, same⟩ := Outcome.bind_eq_ok.1 opened
  rw [← Except.ok.inj same] at failed
  exact ofReading_of_mapError failed

variable {log : Log} {files : Files} {kind : Failure → Prop}

/-- A fault in the stored bytes is reported as damage to their file. -/
theorem failsBy_attempt {α : Type} {outcome : Except Fault α}
    (damage : ∀ ⦃failure⦄, log.Damage failure → kind failure) (attempt : Attempt)
    (blames : FailsBy Fault.IsCorrupt outcome) :
    FailsBy kind (outcome.mapError (.file (log.fileOf attempt) attempt)) :=
  blames.mapError fun _ corrupt => damage (.file attempt corrupt)

theorem failsBy_recordIn (damage : ∀ ⦃failure⦄, log.Damage failure → kind failure) (index : Buffer)
    (revision : Nat) : FailsBy kind (log.recordIn index revision) :=
  failsBy_attempt damage (.readRecord revision) ((Record.blames_read revision).readAt index _)

/-! ## Texts -/

theorem failsBy_storedChunk (covers : log.Covers files kind) (record : Record) :
    FailsBy kind (log.storedChunk files record) := by
  rw [storedChunk]
  split
  · exact failsBy_attempt covers.damage (.locateChunk _) (Buffer.blames_window _ _ _)
  · rename_i split
    exact (covers.data (Bool.eq_false_iff.2 split)).bind fun data _ =>
      failsBy_attempt covers.damage (.locateChunk _) (Buffer.blames_window _ _ _)

theorem failsBy_chunk (covers : log.Covers files kind) (record : Record) :
    FailsBy kind (log.chunk files record) := by
  refine (failsBy_storedChunk covers record).bind fun stored _ => ?_
  split
  · exact failsBy_ok _
  · exact failsBy_ok _
  · exact (failsBy_attempt covers.damage (.locateChunk _) (Buffer.blames_window _ _ _)).bind
      fun _ _ => failsBy_ok _
  · exact failsBy_ok _
  · split
    · exact failsBy_error (covers.damage (.unknownCompression _ _))
    · exact failsBy_ok _

theorem failsBy_patched (damage : ∀ ⦃failure⦄, log.Damage failure → kind failure) (record : Record)
    (chunk base : Reader) : FailsBy kind (log.patched record chunk base) :=
  (failsBy_attempt damage (.readPatch _) (Patch.blames_read chunk)).bind fun patch _ =>
    (failsBy_attempt damage (.applyPatch _)
      (Patch.blames_apply record.textLength patch base)).bind fun _ _ => failsBy_ok _

/-- By induction on the revision, as the chain goes to ever earlier ones. -/
theorem failsBy_chain (damage : ∀ ⦃failure⦄, log.Damage failure → kind failure) (files : Files)
    (revision : Nat) (later : List Record) : FailsBy kind (log.chain files revision later) := by
  induction revision using Nat.strongRecOn generalizing later with
  | ind revision ih =>
    have found := failsBy_recordIn damage files.index revision
    rw [chain]
    split
    · rename_i failed
      exact failsBy_error (found failed)
    · split
      · exact failsBy_ok _
      · dsimp only
        split
        · exact ih _ (by omega) _
        · exact failsBy_error (damage (.deltaParent _ _))

theorem failsBy_replay (covers : log.Covers files kind) (text : Reader) (later : List Record) :
    FailsBy kind (log.replay files text later) := by
  induction later generalizing text with
  | nil => exact failsBy_ok _
  | cons record later ih =>
    exact FailsBy.bind ((failsBy_chunk covers record).bind fun chunk _ =>
      failsBy_patched covers.damage record chunk text) fun patched _ => ih patched

/-- **A text that cannot be rebuilt is lost to damage**, or there is no data file to rebuild it
from. -/
theorem failsBy_rebuild (covers : log.Covers files kind) (revision : Nat) :
    FailsBy kind (log.rebuild files revision) :=
  (failsBy_chain covers.damage files revision []).bind fun found _ =>
    (failsBy_chunk covers found.1).bind fun text _ => failsBy_replay covers text found.2

/-! ## Going on from the previous revision -/

/-- A delta parent is rebuilt if there is a place for it, or looked for past the end of the index. -/
theorem failsBy_parentText (covers : log.Covers files kind) (record : Record) {parent : Int}
    (broken : ¬log.hasPlace parent →
      kind (.deltaParent log.indexFile record.revision parent false)) :
    FailsBy kind (log.parentText files record parent) := by
  rw [parentText]
  split
  · split
    · exact failsBy_error (covers.damage (.file (.readRecord parent) rfl))
    · exact failsBy_rebuild covers _
  · rename_i nowhere
    exact failsBy_error (broken nowhere)

theorem failsBy_contentAfter (covers : log.Covers files kind) (record : Record)
    (broken : ¬log.hasPlace (log.deltaParent record) →
      kind (.deltaParent log.indexFile record.revision (log.deltaParent record) false))
    (previous : Option (Nat × Reader)) : FailsBy kind (log.contentAfter files record previous) := by
  refine (failsBy_chunk covers record).bind fun chunk _ => ?_
  split
  · exact failsBy_ok _
  · have parent := failsBy_parentText covers record broken
    refine FailsBy.bind ?_ fun base _ => failsBy_patched covers.damage record chunk base
    rcases previous with _ | ⟨number, text⟩
    · exact parent
    · rw [baseAfter]
      split
      · exact failsBy_ok _
      · exact parent

theorem failsBy_readAfter (covers : log.Covers files kind)
    (broken : ∀ ⦃failure⦄, failure.IsBreakdown → kind failure) (revision : Nat)
    (previous : Option (Nat × Reader)) : FailsBy kind (log.readAfter files revision previous) :=
  (failsBy_recordIn covers.damage files.index revision).bind fun record _ =>
    (failsBy_contentAfter covers record (fun _ => broken rfl) previous).bind fun _ _ => failsBy_ok _

end Log

end RevisionLog
