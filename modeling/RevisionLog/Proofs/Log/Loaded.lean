import RevisionLog.Log.Content
import RevisionLog.Proofs.Index.Entries

/-!
# Logs whose outline is up to date

A log is `Log.Loaded` from a disk if its outline is that of the index as the disk has it, with all
of its records. Then every revision of the log can be named by a word (`Log.Loaded.check`), and in a
log with a data file each record that is read was checked when the outline was read
(`Log.Loaded.split`).
-/

namespace RevisionLog

theorem Location.openIndex_congr {location : Location} {disk disk' : Disk}
    (same : disk location.indexFile = disk' location.indexFile) :
    location.openIndex disk = location.openIndex disk' := by
  rw [openIndex, openIndex, Disk.open, Disk.open, same]

namespace Log

/-- The outline is that of the index on the disk, and the index was read to its end. -/
structure Loaded (log : Log) (disk : Disk) : Prop where
  outline : log.outline = log.toLocation.outline disk
  status : log.outline.status = .loaded

/-- A log that is asked its first question reads its outline, unless that was read on opening. -/
theorem log_of_open {disk : Disk} {indexFile : String} {options : Options} {handle : Handle}
    (opened : Handle.open disk indexFile options = .ok handle) :
    handle.log disk =
      ⟨.ofIndex indexFile options, (Location.ofIndex indexFile options).outline disk⟩ := by
  rw [Handle.open] at opened
  split at opened
  · obtain ⟨outline, read, same⟩ := Outcome.bind_eq_ok.1 opened
    cases same
    show (⟨_, outline⟩ : Log) = _
    rw [Location.outline, read]
  · cases opened
    rfl

/-- A log that is asked its first question has the outline of the files as they are. -/
theorem loaded_of_open {disk : Disk} {indexFile : String} {options : Options} {handle : Handle}
    (opened : Handle.open disk indexFile options = .ok handle)
    (status : (handle.log disk).outline.status = .loaded) : (handle.log disk).Loaded disk := by
  refine ⟨?_, status⟩
  rw [log_of_open opened]

/-- An index with sound records is read as a whole. -/
theorem readOutline_of_entries {location : Location} {disk : Disk} {index : Bytes} {header : Header}
    {entries : List Entry} (file : disk location.indexFile = .ok index)
    (parsed : Header.parse (index.word 0) = .ok header) (version : header.version = .ng)
    (stand : Outline.Entries header.isInline index 0 0 0 entries) :
    location.readOutline disk = .ok ⟨header, entries, .loaded⟩ := by
  have opened : location.openIndex disk = .ok (.whole index 0) := by
    rw [Location.openIndex, Disk.open, file]
    rfl
  have onward := Nat.le_trans (Outline.le_behind header.isInline index 0) stand.checked.room
  have some : (Buffer.whole index 0).isEmpty = false := by
    rw [Buffer.isEmpty, Buffer.length_whole, Buffer.position_whole]
    rw [Record.size] at onward
    exact decide_eq_false (by omega)
  have read : (Buffer.whole index 0).readAt 0 Outline.readIndex = .ok (header, entries) :=
    Buffer.readAt_whole.2
      ⟨Nat.zero_le _, _, Outline.readIndex_whole.2 ⟨⟨parsed, version, stand⟩, rfl⟩⟩
  rw [Location.readOutline, opened]
  show (if (Buffer.whole index 0).isEmpty = true then _ else _) = _
  rw [if_neg (by rw [some]; exact Bool.false_ne_true), read]
  rfl

/-- An outline that was not read from an index has no revisions. -/
theorem loaded_or_empty (location : Location) (disk : Disk) :
    (location.outline disk).status = .loaded ∨ ∃ status, location.outline disk = .empty status := by
  rw [Location.outline]
  split
  · rename_i read
    obtain ⟨index, -, rest⟩ := Outcome.bind_eq_ok.1 read
    split at rest
    · exact .inr ⟨.missing, (Except.ok.inj rest).symm⟩
    · obtain ⟨found, -, same⟩ := Outcome.bind_eq_ok.1 rest
      rw [← Except.ok.inj same]
      exact .inl rfl
  · exact .inr ⟨_, rfl⟩

variable {log : Log} {disk : Disk} {revision : Nat} {record : Record}

/-- The entries are those of the records in the index file. -/
theorem Loaded.index (loaded : log.Loaded disk) : ∃ index, disk log.indexFile = .ok index ∧
    Header.parse (index.word 0) = .ok log.header ∧
      Outline.Entries log.isInline index 0 0 0 log.outline.entries := by
  obtain ⟨outline, status⟩ := loaded
  rw [Location.outline] at outline
  split at outline
  · rename_i read
    subst outline
    obtain ⟨buffer, opened, rest⟩ := Outcome.bind_eq_ok.1 read
    obtain ⟨index, file, same⟩ := Outcome.bind_eq_ok.1 (Outcome.mapError_eq_ok.1 opened)
    cases same
    refine ⟨index, file, ?_⟩
    split at rest
    · rw [← Except.ok.inj rest] at status
      cases status
    · obtain ⟨⟨header, entries⟩, found, same⟩ := Outcome.bind_eq_ok.1 rest
      rw [Outcome.mapError_eq_ok, Buffer.ofBytes_eq_whole, Buffer.readAt_whole] at found
      obtain ⟨-, after, found⟩ := found
      obtain ⟨⟨parsed, -, stand⟩, -⟩ := Outline.readIndex_whole.1 found
      rw [isInline, Log.header, ← Except.ok.inj same]
      exact ⟨parsed, stand⟩
  · rw [outline] at status
    split at status
    · cases status
    · cases status

theorem Loaded.count_le (loaded : log.Loaded disk) : log.count ≤ 2 ^ 31 := by
  obtain ⟨index, -, -, stand⟩ := loaded.index
  have := stand.length_le (Nat.zero_le _)
  rwa [Nat.zero_add] at this

/-- The word of a revision that the log has names it. -/
theorem check_ofNat (few : log.count ≤ 2 ^ 31) (known : revision < log.count) :
    log.check (Int32.ofNat revision) = .ok revision := by
  have value := Int32.toInt_ofNat_of_lt (Nat.lt_of_lt_of_le known few)
  have stored : Int32.ofNat revision ≠ Revision.tip := by
    intro tip
    rw [tip] at value
    have : Revision.tip.toInt = -3 := rfl
    omega
  rw [check, Revision.resolve, if_neg stored, value, if_pos ⟨by omega, by omega⟩, Int.toNat_natCast]

theorem Loaded.check (loaded : log.Loaded disk) (known : revision < log.count) :
    log.check (Int32.ofNat revision) = .ok revision := check_ofNat loaded.count_le known

/-- A search looks at revisions of the log only. -/
theorem lt_of_mem_searched (among : revision ∈ log.searched) : revision < log.count := by
  have word : (Int32.ofNat log.count).toInt = (log.count : Int).bmod (2 ^ 32) := Int32.toInt_ofNat
  rw [searched, List.mem_range, word, Int.bmod] at among
  omega

/-- A search looks at all revisions, if there is a word for their number. -/
theorem searched_eq (few : log.count < 2 ^ 31) : log.searched = List.range log.count := by
  rw [searched, Int32.toInt_ofNat_of_lt few, Int.toNat_natCast]

/-- A search looks at no revision of as many as there are numbers for. -/
theorem searched_of_full (full : log.count = 2 ^ 31) : log.searched = [] := by
  rw [searched, full]
  rfl

/-- A revision that passes the check is one that the log has. -/
theorem resolve_of_check {number : Revision} (h : log.check number = .ok revision) :
    number.resolve log.count = revision ∧ revision < log.count := by
  rw [Log.check] at h
  split at h
  · rename_i bounds
    cases h
    omega
  · cases h

theorem openIndex_eq_ok {index : Buffer} : log.openIndex disk = .ok index ↔
    ∃ bytes, disk log.indexFile = .ok bytes ∧ index = .whole bytes 0 := by
  rw [Location.openIndex, Outcome.mapError_eq_ok, Disk.open, Outcome.bind_eq_ok]
  refine ⟨?_, ?_⟩
  · rintro ⟨bytes, file, same⟩
    cases same
    exact ⟨bytes, file, rfl⟩
  · rintro ⟨bytes, file, rfl⟩
    exact ⟨bytes, file, rfl⟩

theorem openFiles_eq_ok {files : Files} : log.openFiles disk = .ok files ↔
    log.openIndex disk = .ok files.index ∧ files.data = log.openData disk := by
  rw [Log.openFiles, Outcome.bind_eq_ok]
  refine ⟨?_, ?_⟩
  · rintro ⟨index, opened, same⟩
    cases same
    exact ⟨opened, rfl⟩
  · rintro ⟨opened, data⟩
    refine ⟨files.index, opened, ?_⟩
    rw [← data]
    rfl

theorem openFiles_of_openIndex {index : Buffer} (opened : log.openIndex disk = .ok index) :
    log.openFiles disk = .ok ⟨index, log.openData disk⟩ := openFiles_eq_ok.2 ⟨opened, rfl⟩

theorem openFiles_of_error {failure : Failure} (failed : log.openIndex disk = .error failure) :
    log.openFiles disk = .error failure := by
  rw [openFiles, failed]
  rfl

theorem openFiles_of_index (log : Log) {bytes : Bytes} (file : disk log.indexFile = .ok bytes) :
    ∃ files, log.openFiles disk = .ok files :=
  ⟨_, openFiles_of_openIndex (openIndex_eq_ok.2 ⟨bytes, file, rfl⟩)⟩

/-- The content depends on the revision that is meant. -/
theorem content_eq_of_check {number other : Revision} (checked : log.check number = .ok revision)
    (checked' : log.check other = .ok revision) :
    log.content disk number = log.content disk other := by
  rw [content, content, checked, checked']

theorem record_eq {index : Buffer} {number : Revision} (opened : log.openIndex disk = .ok index)
    (checked : log.check number = .ok revision) :
    log.record disk number = log.recordIn index revision := by
  rw [Log.record, checked]
  show (log.openIndex disk >>= fun index => log.recordIn index revision) = _
  rw [opened]
  rfl

/-- A record that was read is one of the revision that was asked for. -/
theorem recordIn_eq_ok {index : Bytes} {cursor : Nat} :
    log.recordIn (.whole index cursor) revision = .ok record ↔
      log.recordPosition revision + Record.size ≤ index.length ∧
        0 ≤ index.word (log.recordPosition revision + 8) ∧
        record = Record.ofIndex index (log.recordPosition revision) revision := by
  rw [recordIn, Outcome.mapError_eq_ok, Record.readAt_whole]

theorem revision_of_record {number : Revision} (found : log.record disk number = .ok record) :
    log.check number = .ok record.revision := by
  obtain ⟨revision, checked, found⟩ := Outcome.bind_eq_ok.1 found
  obtain ⟨index, opened, found⟩ := Outcome.bind_eq_ok.1 found
  obtain ⟨bytes, -, rfl⟩ := openIndex_eq_ok.1 opened
  obtain ⟨-, -, rfl⟩ := recordIn_eq_ok.1 found
  exact checked

theorem recordPosition_split (split : log.isInline = false) (revision : Nat) :
    log.recordPosition revision = Record.size * revision := by
  rw [recordPosition, split]

/-- **In a log with a data file, the base of every record is its revision or an earlier one.** -/
theorem Loaded.split (loaded : log.Loaded disk) (split : log.isInline = false) {index : Buffer}
    (opened : log.openIndex disk = .ok index) (known : revision < log.count)
    (found : log.recordIn index revision = .ok record) :
    0 ≤ record.base.toInt ∧ record.base.toInt ≤ revision := by
  obtain ⟨bytes, file, rfl⟩ := openIndex_eq_ok.1 opened
  obtain ⟨index, same, -, stand⟩ := loaded.index
  obtain rfl : bytes = index := Except.ok.inj (file.symm.trans same)
  obtain ⟨-, -, rfl⟩ := recordIn_eq_ok.1 found
  rw [split] at stand
  have checked := stand.split known
  rw [Nat.zero_add, Nat.zero_add, ← recordPosition_split split] at checked
  have small := loaded.count_le
  exact ⟨Int32.le_iff_toInt_le.1 checked.base, (checked.base_le (by omega)).2⟩

/-- Every patch applies to the text of an earlier revision. -/
def Proper (log : Log) (index : Buffer) : Prop :=
  ∀ ⦃revision record⦄, revision < log.count → log.recordIn index revision = .ok record →
    ¬record.isLiteral → 0 ≤ log.deltaParent record ∧ log.deltaParent record < revision

/-- Patches apply to earlier revisions if the bases are earlier. -/
theorem proper_of_base {index : Bytes} {cursor : Nat}
    (base : ∀ ⦃revision record⦄, revision < log.count →
      log.recordIn (.whole index cursor) revision = .ok record →
        0 ≤ record.base.toInt ∧ record.base.toInt ≤ revision) :
    log.Proper (.whole index cursor) := by
  intro revision record known found patch
  obtain ⟨nonneg, le⟩ := base known found
  obtain ⟨-, -, same⟩ := recordIn_eq_ok.1 found
  have number : record.revision = revision := by rw [same]; rfl
  have other : record.base.toInt ≠ revision := by
    intro literal
    exact patch (by rw [Record.isLiteral, number]; exact decide_eq_true literal)
  rw [deltaParent]
  split
  · omega
  · omega

end Log

end RevisionLog
