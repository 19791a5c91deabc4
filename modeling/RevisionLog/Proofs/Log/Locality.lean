import RevisionLog.Proofs.Log.Mirror
import RevisionLog.Proofs.Log.Questions
import RevisionLog.Proofs.Log.WarmUp

/-!
# Damage stays local

In a log with a data file, the text of a revision is made from the chunks of the revisions that it
`Log.Needs`. No other byte of the data file matters, and neither does where the file ends. So two
data files in which these chunks are the same have the same text of the revision, or the same reason
why there is none (`Log.content_eq_of_sameChunks`).
-/

namespace RevisionLog

open Outcome (FailsBy accords_mapError)

/-- Outcomes that accord are the same, if their failures are told apart by more than the file that
they name. -/
theorem Outcome.Accords.eq {α : Type} {kind : Failure → Prop} {outcome outcome' : Except Failure α}
    (accords : Outcome.Accords (fun _ => False) Eq outcome outcome') (fails : FailsBy kind outcome)
    (fails' : FailsBy kind outcome')
    (named : ∀ ⦃failure failure'⦄, kind failure → kind failure' →
      failure.anywhere = failure'.anywhere → failure = failure') : outcome = outcome' := by
  cases accords with
  | ok same => rw [same]
  | error same => rw [named (fails rfl) (fails' rfl) same]
  | excused excuse => exact excuse.elim

/-- The chunk of a record lies inside two data files and is the same in both. -/
structure Record.SameChunk (record : Record) (data data' : Bytes) : Prop where
  inside : record.offset + record.chunkLength.toInt.toNat ≤ data.length
  inside' : record.offset + record.chunkLength.toInt.toNat ≤ data'.length
  same : (data.drop record.offset).take record.chunkLength.toInt.toNat =
    (data'.drop record.offset).take record.chunkLength.toInt.toNat

namespace Log

variable {log : Log} {disk disk' : Disk} {record : Record} {data data' : Bytes}

/-- What damage is reported as names the file that is damaged, as the log has it. -/
theorem Damage.eq_of_anywhere {failure failure' : Failure} (damage : log.Damage failure)
    (damage' : log.Damage failure') (same : failure.anywhere = failure'.anywhere) :
    failure = failure' := by
  cases damage <;> cases damage' <;> cases same <;> rfl

/-- The open files of a log whose data file holds some bytes. -/
def filesOf (index : Buffer) (data : Bytes) : Files := ⟨index, .ok (.whole data 0)⟩

theorem openFiles_of_data {index : Buffer} (opened : log.openIndex disk = .ok index)
    (there : disk log.dataFile = .ok data) : log.openFiles disk = .ok (filesOf index data) := by
  rw [openFiles, opened, Location.openData, Disk.open, there]
  rfl

/-- A chunk that is the same in two data files is found in both. -/
theorem accords_storedChunk {excused : Failure → Prop} (split : log.isInline = false)
    (index : Buffer) (chunk : record.SameChunk data data') : Outcome.Accords excused Buffer.Alike
      (log.storedChunk (filesOf index data) record)
      (log.storedChunk (filesOf index data') record) := by
  obtain ⟨inner, window, -, -, slice⟩ := Buffer.window_whole chunk.inside
  obtain ⟨inner', window', -, -, slice'⟩ := Buffer.window_whole chunk.inside'
  rw [storedChunk, storedChunk, split]
  show Outcome.Accords excused Buffer.Alike (((Buffer.whole data 0).window _ _).mapError _)
    (((Buffer.whole data' 0).window _ _).mapError _)
  rw [window, window']
  exact .ok (Buffer.alike_of_window window window' (by rw [slice, slice', chunk.same]))

/-- The chunks that the text of a revision is made from are the same in two data files. -/
def SameChunks (log : Log) (index : Buffer) (data data' : Bytes) (revision : Nat) : Prop :=
  ∀ ⦃other record⦄, log.Needs (filesOf index data) revision other →
    log.recordIn index other = .ok record → record.SameChunk data data'

/-- What is made of the same chunks is alike. The revisions that are made of such chunks only include
the delta parent of each. -/
theorem accords_rebuild_of_sameChunks {excused : Failure → Prop} (split : log.isInline = false)
    {index : Buffer} {revision : Nat} (chunks : log.SameChunks index data data' revision) :
    Outcome.Accords excused Reader.Alike (log.rebuild (filesOf index data) revision)
      (log.rebuild (filesOf index data') revision) := by
  refine accords_rebuild (log.SameChunks index data data') rfl ?_ ?_ ?_ chunks
  · intro n record same found patch earlier other _ needs
    exact same (.parent found patch earlier needs)
  · exact fun n _ => accords_mapError rfl _ _ _
  · intro n record same found
    exact accords_chunk rfl (accords_storedChunk split index (same (.self n) found))

/-- **Damage stays local.** If the chunks of all revisions that a revision of a log is made from lie
inside two data files and are the same in both, then the content of the revision is the same with
either of them, or fails for the same reason, whatever else the data files hold. -/
theorem content_eq_of_sameChunks (split : log.isInline = false) {number : Revision}
    (sameIndex : disk log.indexFile = disk' log.indexFile) (before : disk log.dataFile = .ok data)
    (after : disk' log.dataFile = .ok data')
    (chunks : ∀ index revision, log.openIndex disk = .ok index → log.check number = .ok revision →
      log.SameChunks index data data' revision) :
    log.content disk number = log.content disk' number := by
  have reopened : log.openIndex disk' = log.openIndex disk := Location.openIndex_congr sameIndex.symm
  cases checked : log.check number with
  | error failure =>
    rw [(replies_of_refused checked).content, (replies_of_refused checked).content]
  | ok revision =>
    cases opened : log.openIndex disk with
    | error failure =>
      rw [content, content, checked, openFiles_of_error opened,
        openFiles_of_error (reopened.trans opened)]
    | ok index =>
      obtain ⟨bytes, file, -⟩ := openIndex_eq_ok.1 opened
      refine Outcome.Accords.eq ?_ (failsBy_content ⟨⟨bytes, file⟩, data, before⟩ checked)
        (failsBy_content ⟨⟨bytes, sameIndex ▸ file⟩, data', after⟩ checked)
        fun _ _ => Damage.eq_of_anywhere
      rw [content, content, checked]
      show Outcome.Accords _ Eq
        (log.openFiles disk >>= fun files => log.rebuild files revision >>= _)
        (log.openFiles disk' >>= fun files => log.rebuild files revision >>= _)
      rw [openFiles_of_data opened before, openFiles_of_data (reopened.trans opened) after]
      refine (accords_rebuild_of_sameChunks split (chunks index revision opened checked)).bind
        fun text text' _ _ alike => ?_
      exact accords_mapError (Reader.respects_rest alike).1 _ _ _

/-- The pair and another text in full. -/
def trio : List Stored := pair ++ [.ofChunk 2 2 [0x75, 7, 8]]

/-- The files of a log that held the three, when the last chunk is lost. -/
def cutTrioDisk : Disk := fun path =>
  .ok (if path = "a.i" then Index.write {} trio else Index.writeData pair)

/-- The chunks of the pair are what both data files hold. -/
theorem sameChunks_trio {index : Buffer} (opened : (splitLog trio).openIndex (splitDisk trio) =
    .ok index) : (splitLog trio).SameChunks index (Index.writeData trio) (Index.writeData pair) 1 := by
  intro other record needs found
  obtain ⟨bytes, file, rfl⟩ := openIndex_eq_ok.1 opened
  cases file
  have le := needs.le
  obtain rfl | rfl : other = 0 ∨ other = 1 := by omega
  · obtain ⟨-, -, rfl⟩ := recordIn_eq_ok.1 found
    exact ⟨by decide, by decide, by decide⟩
  · obtain ⟨-, -, rfl⟩ := recordIn_eq_ok.1 found
    exact ⟨by decide, by decide, by decide⟩

theorem content_trio : (splitLog trio).content (splitDisk trio) 1 = .ok [1, 9, 9, 3] := by cbv

set_option maxRecDepth 4000 in
/-- The patched text, which is made from two chunks, is there without the third one, though the third
text is not. -/
theorem content_eq_of_sameChunks_trio :
    (splitLog trio).content cutTrioDisk 1 = .ok [1, 9, 9, 3] ∧
      ((splitLog trio).content cutTrioDisk 2).toOption = none := by
  have whole : splitDisk trio (splitLog trio).dataFile = .ok (Index.writeData trio) := rfl
  have cut : cutTrioDisk (splitLog trio).dataFile = .ok (Index.writeData pair) := rfl
  have same : (splitLog trio).content (splitDisk trio) 1 =
      (splitLog trio).content cutTrioDisk 1 := by
    refine content_eq_of_sameChunks rfl rfl whole cut fun index revision opened checked => ?_
    obtain rfl : 1 = revision := Except.ok.inj (.trans rfl checked)
    exact sameChunks_trio opened
  exact ⟨same ▸ content_trio, by cbv⟩

end Log

end RevisionLog
