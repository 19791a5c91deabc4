import RevisionLog.FileLog
import RevisionLog.Proofs.Log.Damage
import RevisionLog.Proofs.Log.Records

/-!
# Questions about one revision

There are seven questions about one revision of a log, and six more if it is that of a tracked file
(`Log.Replies`, `FileLog.Replies`). They all look first whether the log has the revision. If it does
not, the answer is the same whatever the files hold (`FileLog.replies_of_refused`). If it does, and
the files can be opened, only damage can keep the question from being answered
(`FileLog.replies_of_known`). The same goes for a search by node id (`Log.failsBy_find`).
-/

namespace RevisionLog

open Outcome (FailsBy failsBy_ok failsBy_error)

/-- The files are regular ones, or not there. -/
structure Location.Accessible (location : Location) (disk : Disk) : Prop where
  index : ∃ bytes, disk location.indexFile = .ok bytes
  data : ∃ bytes, disk location.dataFile = .ok bytes

namespace Log

/-- Whatever is asked about a revision, the outcome is of some kind. -/
structure Replies (kind : ∀ {α : Type}, Except Failure α → Prop) (log : Log) (disk : Disk)
    (number : Revision) : Prop where
  record : kind (log.record disk number)
  chunkLength : kind (log.chunkLength disk number)
  textLength : kind (log.textLength disk number)
  link : kind (log.link disk number)
  parents : kind (log.parents disk number)
  node : kind (log.node disk number)
  content : kind (log.content disk number)

theorem Replies.mono {kind kind' : ∀ {α : Type}, Except Failure α → Prop} {log : Log} {disk : Disk}
    {number : Revision} (replies : log.Replies kind disk number)
    (includes : ∀ {α : Type} {outcome : Except Failure α}, kind outcome → kind' outcome) :
    log.Replies kind' disk number :=
  ⟨includes replies.record, includes replies.chunkLength, includes replies.textLength,
    includes replies.link, includes replies.parents, includes replies.node,
    includes replies.content⟩

/-- The log has the revision, the last one being meant by `Revision.tip`. -/
def HasRevision (log : Log) (number : Revision) : Prop :=
  0 ≤ number.resolve log.count ∧ number.resolve log.count < log.count

variable {log : Log} {disk : Disk} {number : Revision} {revision : Nat}

theorem HasRevision.check (has : log.HasRevision number) :
    log.check number = .ok (number.resolve log.count).toNat := if_pos has

theorem check_of_not_hasRevision (not : ¬log.HasRevision number) : log.check number =
    .error (.invalidRevision (.outOfRange number 0 (Int32.ofInt (log.count - 1)))) := if_neg not

/-! ## Revisions that the log does not have -/

/-- A question about a revision that is refused comes to nothing else. -/
theorem replies_of_refused {failure : Failure} (refused : log.check number = .error failure) :
    log.Replies (fun outcome => outcome = .error failure) disk number := by
  have field : ∀ offset, log.field disk number offset = .error failure := by
    intro offset
    rw [Log.field, refused]
    rfl
  have record : log.record disk number = .error failure := by
    rw [Log.record, refused]
    rfl
  refine ⟨record, field 8, field 12, ?_, ?_, ?_, ?_⟩
  · rw [Log.link, record]
    rfl
  · rw [Log.parents, record]
    rfl
  · rw [Log.node, record]
    rfl
  · rw [Log.content, refused]
    rfl

/-! ## Revisions that the log has -/

section Known

variable {kind : Failure → Prop} (accessible : log.toLocation.Accessible disk)

include accessible

theorem openFiles_of_accessible : ∃ files, log.openFiles disk = .ok files ∧ log.Readable files := by
  obtain ⟨bytes, index⟩ := accessible.index
  obtain ⟨more, data⟩ := accessible.data
  obtain ⟨files, opened⟩ := openFiles_of_index log index
  refine ⟨files, opened, fun _ => ⟨.ofBytes more, ?_⟩⟩
  rw [(openFiles_eq_ok.1 opened).2, Location.openData, Disk.open, data]
  rfl

theorem failsBy_openIndex : FailsBy kind (log.openIndex disk) := by
  obtain ⟨files, opened, -⟩ := openFiles_of_accessible accessible
  rw [(openFiles_eq_ok.1 opened).1]
  exact failsBy_ok _

variable (checked : log.check number = .ok revision)

include checked

theorem failsBy_record : FailsBy log.Damage (log.record disk number) := by
  rw [Log.record, checked]
  exact (failsBy_openIndex accessible).bind fun index _ =>
    failsBy_recordIn (fun _ damage => damage) index revision

theorem failsBy_field (offset : Nat) : FailsBy log.Damage (log.field disk number offset) := by
  rw [Log.field, checked]
  exact (failsBy_openIndex accessible).bind fun index _ =>
    failsBy_attempt (fun _ damage => damage) (.readRecord revision)
      (Buffer.blames_int32.readAt index _)

theorem failsBy_content : FailsBy log.Damage (log.content disk number) := by
  obtain ⟨files, opened, readable⟩ := openFiles_of_accessible accessible
  rw [Log.content, checked]
  show FailsBy log.Damage (log.openFiles disk >>= fun files => log.rebuild files revision >>= _)
  rw [opened]
  exact (failsBy_rebuild (covers_of_readable (fun _ => id) readable) revision).bind fun text _ =>
    failsBy_attempt (fun _ damage => damage) (.readContent revision) (Reader.blames_rest text)

/-- **Only damage keeps a question about a revision of the log from being answered.** -/
theorem replies_of_known : log.Replies (FailsBy log.Damage) disk number := by
  have record := failsBy_record accessible checked
  have field := failsBy_field accessible checked
  exact ⟨record, field 8, field 12, record.bind fun _ _ => failsBy_ok _,
    record.bind fun _ _ => failsBy_ok _, record.bind fun _ _ => failsBy_ok _,
    failsBy_content accessible checked⟩

end Known

/-! ## Searches -/

/-- Only damage keeps a search from being answered. -/
theorem failsBy_find (accessible : log.toLocation.Accessible disk) (node : NodeId) :
    FailsBy log.Damage (log.find disk node) := by
  rw [find]
  split
  · exact failsBy_ok _
  · refine (failsBy_openIndex accessible).bind fun index _ => ?_
    generalize log.searched = revisions
    induction revisions with
    | nil => exact failsBy_ok _
    | cons revision revisions ih =>
      rw [findIn]
      refine (failsBy_attempt (fun _ damage => damage) (.readNode revision)
        ((Buffer.blames_read 20).readAt index _)).bind fun bytes _ => ?_
      split
      · exact failsBy_ok _
      · exact ih

/-- What a search among some revisions finds is one of them. If it finds nothing, none of their
records has the id. -/
theorem findIn_eq_ok {index : Bytes} {cursor : Nat} {node : NodeId} {revisions : List Nat}
    (found : log.findIn (.whole index cursor) node revisions = .ok number) :
    (∃ revision ∈ revisions, number = Int32.ofNat revision) ∨
      number = .bad ∧ ∀ revision ∈ revisions, ∀ record,
        log.recordIn (.whole index cursor) revision = .ok record → record.node ≠ node := by
  induction revisions with
  | nil => exact .inr ⟨(Except.ok.inj found).symm, nofun⟩
  | cons revision revisions ih =>
    rw [findIn] at found
    obtain ⟨bytes, read, found⟩ := Outcome.bind_eq_ok.1 found
    split at found
    · exact .inl ⟨revision, List.mem_cons_self, (Except.ok.inj found).symm⟩
    · rename_i other
      rcases ih found with ⟨later, among, same⟩ | ⟨bad, none⟩
      · exact .inl ⟨later, List.mem_cons_of_mem _ among, same⟩
      · refine .inr ⟨bad, fun earlier among record there same => ?_⟩
        rcases List.mem_cons.1 among with rfl | among
        · -- The bytes that were read are those of the record.
          rw [Outcome.mapError_eq_ok, nodeAt_of_record there] at read
          rw [← Except.ok.inj read] at other
          exact other (NodeId.isBytes_iff.2 same)
        · exact none earlier among record there same

/-- A search finds a revision of the log or none. If it finds none, no revision has the id, unless
the log has as many revisions as there are numbers for and so none was looked at. -/
theorem find_eq_ok (most : log.count ≤ 2 ^ 31) {node : NodeId}
    (found : log.find disk node = .ok number) :
    (number ≠ .bad ∧ ∃ revision, log.check number = .ok revision) ∨
      number = .bad ∧ (log.count < 2 ^ 31 → ∀ other, log.node disk other ≠ .ok node) := by
  rw [find] at found
  split at found
  · rename_i nothing
    refine .inr ⟨(Except.ok.inj found).symm, fun _ other known => ?_⟩
    obtain ⟨record, there, -⟩ := Outcome.bind_eq_ok.1 known
    have inside := (resolve_of_check (revision_of_record there)).2
    omega
  · obtain ⟨index, opened, found⟩ := Outcome.bind_eq_ok.1 found
    obtain ⟨bytes, -, rfl⟩ := openIndex_eq_ok.1 opened
    rcases findIn_eq_ok found with ⟨revision, among, rfl⟩ | ⟨bad, none⟩
    · have known := lt_of_mem_searched among
      have value := Int32.toInt_ofNat_of_lt (Nat.lt_of_lt_of_le known most)
      refine .inl ⟨fun bad => ?_, revision, check_ofNat most known⟩
      rw [bad] at value
      have : Revision.bad.toInt = -2 ^ 31 := rfl
      omega
    · refine .inr ⟨bad, fun few other known => ?_⟩
      obtain ⟨record, there, same⟩ := Outcome.bind_eq_ok.1 known
      have checked := revision_of_record there
      rw [record_eq opened checked] at there
      have looked : record.revision ∈ log.searched := by
        rw [searched_eq few]
        exact List.mem_range.2 (resolve_of_check checked).2
      exact none _ looked record there (Except.ok.inj same)

end Log

/-! ## Logs of tracked files -/

namespace FileLog

/-- Whatever is asked about a revision of a file, the outcome is of some kind. -/
structure Replies (kind : ∀ {α : Type}, Except Failure α → Prop) (file : FileLog) (disk : Disk)
    (number : Revision) : Prop extends Log.Replies kind file.toLog disk number where
  metadata : kind (file.metadata disk number)
  fileContent : kind (file.content disk number)
  isCopy : kind (file.isCopy disk number)
  copySource : kind (file.copySource disk number)
  copyRevision : kind (file.copyRevision disk number)
  changeset : kind (file.changeset disk number)

theorem Replies.mono {kind kind' : ∀ {α : Type}, Except Failure α → Prop} {file : FileLog}
    {disk : Disk} {number : Revision} (replies : file.Replies kind disk number)
    (includes : ∀ {α : Type} {outcome : Except Failure α}, kind outcome → kind' outcome) :
    file.Replies kind' disk number :=
  ⟨replies.toReplies.mono includes, includes replies.metadata, includes replies.fileContent,
    includes replies.isCopy, includes replies.copySource, includes replies.copyRevision,
    includes replies.changeset⟩

variable {file : FileLog} {disk : Disk} {number : Revision} {revision : Nat}

/-- **A revision that the log does not have is refused**, whatever is asked and whatever the files
hold. -/
theorem replies_of_refused {failure : Failure} (refused : file.check number = .error failure) :
    file.Replies (fun outcome => outcome = .error failure) disk number := by
  have replies : file.toLog.Replies (fun outcome => outcome = .error failure) disk number :=
    Log.replies_of_refused refused
  have metadata : file.metadata disk number = .error failure := by
    rw [FileLog.metadata, replies.content]
    rfl
  refine ⟨replies, metadata, ?_, ?_, ?_, ?_, replies.link⟩
  · rw [FileLog.content, replies.content]
    rfl
  · rw [FileLog.isCopy, metadata]
    rfl
  · rw [FileLog.copySource, metadata]
    rfl
  · rw [FileLog.copyRevision, metadata]
    rfl

/-- **Only damage keeps a question about a revision of the file from being answered.** -/
theorem replies_of_known (accessible : file.toLocation.Accessible disk)
    (checked : file.check number = .ok revision) :
    file.Replies (FailsBy file.Damage) disk number := by
  have replies := Log.replies_of_known accessible checked
  have parsed : ∀ text, FailsBy file.Damage (file.metadataOf number text) := fun text =>
    Log.failsBy_attempt (fun _ damage => damage) (.readMetadata number) (Metadata.blames_parse text)
  have metadata : FailsBy file.Damage (file.metadata disk number) :=
    replies.content.bind fun text _ => parsed text
  refine ⟨replies, metadata, replies.content.bind fun text _ => (parsed text).bind fun _ _ =>
    failsBy_ok _, metadata.bind fun _ _ => failsBy_ok _, metadata.bind fun _ _ => failsBy_ok _, ?_,
    replies.link⟩
  refine metadata.bind fun told _ => ?_
  split
  · exact failsBy_ok _
  · rename_i text _
    have read : FailsBy (fun _ : NodeId.Fault => True) (NodeId.ofHex (Text.utf8 text)) :=
      fun _ _ => trivial
    exact (read.mapError fun fault _ => Log.Damage.copyRevision number fault).bind fun _ _ =>
      failsBy_ok _

end FileLog

end RevisionLog
