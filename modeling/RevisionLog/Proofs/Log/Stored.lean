import RevisionLog.Proofs.Index.Written
import RevisionLog.Proofs.Log.Loaded
import RevisionLog.Proofs.Reader.Shown

/-!
# Logs that were written

An index that is written is one that can be opened (`Log.open_written`). A log that `Log.Holds` some
revisions has files and an outline as they are written: each record reads back as it was stored
(`Log.Holds.recordIn_eq`), and its chunk is found (`Log.Holds.storedChunk_eq`), behind the record in
an inline log and at its offset in the data file otherwise. `Log.splitLog` is the log of any
revisions with a data file, be they a text and a patch on it (`Log.pair`) or as many as there are
numbers for (`Log.crowd`).
-/

namespace RevisionLog

/-- Where there is room for it, a window shows the bytes at its place. -/
theorem Buffer.window_whole {bytes : Bytes} {place count : Nat}
    (room : place + count ≤ bytes.length) :
    ∃ inner, (whole bytes 0).window place count = .ok inner ∧ inner.Fits ∧
      inner.position = 0 ∧ inner.slice = (bytes.drop place).take count := by
  have found : (whole bytes 0).window place count = .ok ⟨bytes.toArray, 0 + place, count, 0⟩ :=
    if_pos room
  have fits : (whole bytes 0).Fits := fits_ofBytes bytes
  have slice : (whole bytes 0).slice = bytes := slice_ofBytes bytes
  exact ⟨_, found, fits.window found, rfl, by rw [slice_window found, slice]⟩

namespace Log

/-- The files are those that are written for a log with these revisions, and so is the outline. -/
structure Holds (log : Log) (files : Files) (revisions : List Stored) : Prop where
  index : files.index = .whole (Index.write log.header revisions) 0
  data : log.isInline = false → files.data = .ok (.whole (Index.writeData revisions) 0)
  entries : log.outline.entries = Index.entriesFrom log.isInline 0 0 revisions

/-- The first word of a written index is its header. -/
theorem parse_write {header : Header} {revisions : List Stored} (version : header.version = .ng)
    (some : revisions ≠ []) :
    Header.parse (Bytes.word (Index.write header revisions) 0) = .ok header := by
  obtain ⟨stored, rest, same⟩ := List.exists_cons_of_ne_nil some
  rw [same, Index.write, Index.writeFrom, Index.leading, if_pos rfl]
  simp only [List.append_assoc, Bytes.word_ofInt32]
  exact Header.parse_word version

/-- A written log is opened with an entry for each revision, whatever the options. -/
theorem open_written {disk : Disk} {indexFile : String} {header : Header} {revisions : List Stored}
    (options : Options) (version : header.version = .ng) (some : revisions ≠ [])
    (few : revisions.length ≤ 2 ^ 31) (sound : Index.Sound 0 0 revisions)
    (file : disk indexFile = .ok (Index.write header revisions)) :
    ∃ handle, Handle.open disk indexFile options = .ok handle ∧
      handle.log disk = ⟨.ofIndex indexFile options,
        ⟨header, Index.entriesFrom header.isInline 0 0 revisions, .loaded⟩⟩ := by
  have stand : Outline.Entries header.isInline (Index.write header revisions) 0 0 0
      (Index.entriesFrom header.isInline 0 0 revisions) :=
    Index.entries_write rfl some sound (by omega)
  have read : (Location.ofIndex indexFile options).readOutline disk =
      .ok ⟨header, Index.entriesFrom header.isInline 0 0 revisions, .loaded⟩ :=
    readOutline_of_entries file (parse_write version some) version stand
  rw [Handle.open]
  split
  · rw [read]
    exact ⟨_, rfl, rfl⟩
  · refine ⟨_, rfl, ?_⟩
    show (⟨_, (Location.ofIndex indexFile options).outline disk⟩ : Log) = _
    rw [Location.outline, read]

/-- A written log is loaded. -/
theorem loaded_of_written {disk : Disk} {indexFile : String} {header : Header}
    {revisions : List Stored} (options : Options) (version : header.version = .ng)
    (some : revisions ≠ []) (few : revisions.length ≤ 2 ^ 31) (sound : Index.Sound 0 0 revisions)
    (file : disk indexFile = .ok (Index.write header revisions)) :
    Loaded ⟨.ofIndex indexFile options,
      ⟨header, Index.entriesFrom header.isInline 0 0 revisions, .loaded⟩⟩ disk := by
  obtain ⟨handle, opened, made⟩ := open_written options version some few sound file
  rw [← made]
  exact loaded_of_open opened (by rw [made])

/-- A written log holds its revisions. -/
theorem holds_of_disk {disk : Disk} (location : Location) {header : Header}
    {revisions : List Stored}
    (index : disk location.indexFile = .ok (Index.write header revisions))
    (data : header.isInline = false → disk location.dataFile = .ok (Index.writeData revisions)) :
    let log : Log := ⟨location, ⟨header, Index.entriesFrom header.isInline 0 0 revisions, .loaded⟩⟩
    ∃ files, log.openFiles disk = .ok files ∧ log.Holds files revisions := by
  have opened : location.openIndex disk = .ok (.whole (Index.write header revisions) 0) := by
    rw [Location.openIndex, Disk.open, index]
    rfl
  refine ⟨⟨.whole (Index.write header revisions) 0, location.openData disk⟩,
    openFiles_of_openIndex opened, rfl, fun split => ?_, rfl⟩
  show location.openData disk = _
  rw [Location.openData, Disk.open, data split]
  rfl

variable {log : Log} {files : Files} {revisions : List Stored} {stored : Stored} {n : Nat}

theorem Holds.count_eq (holds : log.Holds files revisions) : log.count = revisions.length := by
  rw [count, Outline.count, holds.entries, Index.length_entriesFrom]

theorem Holds.recordPosition_eq (holds : log.Holds files revisions)
    (found : revisions[n]? = some stored) :
    log.recordPosition n = Index.position log.header revisions n := by
  cases layout : log.isInline with
  | false =>
    have split : log.header.isInline = false := layout
    rw [recordPosition_split layout, Index.position, split]
    rfl
  | true =>
    have inline : log.header.isInline = true := layout
    have entry := Index.getElem?_entriesFrom log.isInline 0 0 revisions n
    rw [found, ← holds.entries, layout] at entry
    rw [recordPosition, layout, entry, Index.position, inline]
    show 0 + Index.start revisions n + Record.size * (0 + n) = _
    rw [Nat.zero_add, Nat.zero_add, Nat.add_comm]
    rfl

/-- **A record is found as it was written.** -/
theorem Holds.recordIn_eq (holds : log.Holds files revisions) (sound : Index.Sound 0 0 revisions)
    (few : revisions.length ≤ 2 ^ 31) (found : revisions[n]? = some stored) :
    log.recordIn files.index n = .ok (stored.record n (Index.start revisions n)) := by
  have known := (List.getElem?_eq_some_iff.1 found).1
  have there := Index.drop_write log.header found
  have fine := sound n stored found
  rw [Nat.zero_add, Nat.zero_add] at fine
  have checked := Index.checked_write there fine (by omega)
  rw [holds.index, recordIn_eq_ok, holds.recordPosition_eq found]
  exact ⟨Nat.le_trans (Outline.le_behind ..) checked.room, checked.chunk,
    (Index.ofIndex_write there fine).symm⟩

theorem Holds.proper (holds : log.Holds files revisions) (sound : Index.Sound 0 0 revisions)
    (few : revisions.length ≤ 2 ^ 31) : log.Proper files.index := by
  rw [holds.index]
  refine proper_of_base fun n record known found => ?_
  rw [holds.count_eq] at known
  have stored : revisions[n]? = some revisions[n] := List.getElem?_eq_getElem known
  rw [← holds.index, holds.recordIn_eq sound few stored] at found
  cases found
  have base := (sound n _ stored).base
  rwa [Nat.zero_add] at base

/-- **The chunk of a record is found as it was written.** -/
theorem Holds.storedChunk_eq (holds : log.Holds files revisions) (sound : Index.Sound 0 0 revisions)
    (few : revisions.length ≤ 2 ^ 31) (found : revisions[n]? = some stored) :
    ∃ buffer, log.storedChunk files (stored.record n (Index.start revisions n)) = .ok buffer ∧
      buffer.Fits ∧ buffer.position = 0 ∧ buffer.slice = stored.chunk := by
  have known := (List.getElem?_eq_some_iff.1 found).1
  have fine := sound n stored found
  rw [Nat.zero_add, Nat.zero_add] at fine
  have length : (Int32.ofNat stored.chunk.length).toInt.toNat = stored.chunk.length := by
    rw [Int32.toInt_ofNat_of_lt fine.chunk, Int.toNat_natCast]
  rw [storedChunk]
  cases layout : log.isInline with
  | false =>
    obtain ⟨buffer, window, fits, start, slice⟩ :=
      Buffer.window_whole (Index.start_add_le found)
    rw [Index.chunk_writeData found] at slice
    refine ⟨buffer, ?_, fits, start, slice⟩
    rw [if_neg Bool.false_ne_true, holds.data layout]
    show ((Buffer.whole _ 0).window (Index.start revisions n)
      (Int32.ofNat stored.chunk.length).toInt.toNat).mapError _ = _
    rw [length, window]
    rfl
  | true =>
    have there := Index.drop_write log.header found
    have room := (Index.checked_write there fine (by omega)).room
    have inline : log.header.isInline = true := layout
    rw [Index.behind_write there fine, inline, if_pos rfl, ← Nat.add_assoc] at room
    obtain ⟨buffer, window, fits, start, slice⟩ := Buffer.window_whole room
    rw [Index.chunk_write inline there] at slice
    refine ⟨buffer, ?_, fits, start, slice⟩
    rw [if_pos rfl, holds.index]
    show ((Buffer.whole _ 0).window (log.recordPosition n + _)
      (Int32.ofNat stored.chunk.length).toInt.toNat).mapError _ = _
    rw [length, holds.recordPosition_eq found, window]
    rfl

/-! ## Logs with a data file -/

/-- The files of a log without general deltas that has its chunks in a data file. -/
def splitDisk (revisions : List Stored) : Disk := fun path =>
  .ok (if path = "a.i" then Index.write {} revisions else Index.writeData revisions)

/-- The log with these files. -/
def splitLog (revisions : List Stored) : Log :=
  ⟨.ofIndex "a.i" {}, ⟨{}, Index.entriesFrom false 0 0 revisions, .loaded⟩⟩

/-- The files when they are open. -/
def splitFiles (revisions : List Stored) : Files :=
  ⟨.whole (Index.write {} revisions) 0, .ok (.whole (Index.writeData revisions) 0)⟩

theorem openFiles_split (revisions : List Stored) :
    (splitLog revisions).openFiles (splitDisk revisions) = .ok (splitFiles revisions) := rfl

theorem holds_split (revisions : List Stored) :
    (splitLog revisions).Holds (splitFiles revisions) revisions := ⟨rfl, fun _ => rfl, rfl⟩

theorem loaded_split (some : revisions ≠ []) (few : revisions.length ≤ 2 ^ 31)
    (sound : Index.Sound 0 0 revisions) : (splitLog revisions).Loaded (splitDisk revisions) :=
  loaded_of_written {} rfl some few sound rfl

/-- The record of each revision is the one that was written. -/
theorem record_split (few : revisions.length ≤ 2 ^ 31) (sound : Index.Sound 0 0 revisions)
    (found : revisions[n]? = some stored) :
    (splitLog revisions).record (splitDisk revisions) (Int32.ofNat n) =
      .ok (stored.record n (Index.start revisions n)) := by
  have holds := holds_split revisions
  have known := (List.getElem?_eq_some_iff.1 found).1
  have count := holds.count_eq
  rw [record_eq (openFiles_eq_ok.1 (openFiles_split revisions)).1
    (check_ofNat (by rwa [count]) (by rwa [count]))]
  exact holds.recordIn_eq sound few found

/-- A text in full and a patch on it. -/
def pair : List Stored :=
  [.ofChunk 0 3 [0x75, 1, 2, 3], .ofChunk 0 4 (0x75 :: Patch.write [⟨1, 2, [9, 9]⟩])]

/-- The files of a log that holds the two. -/
def pairDisk : Disk := splitDisk pair

/-- The log with these files. -/
def pairLog : Log := splitLog pair

theorem sound_pair : Index.Sound 0 0 pair := by decide

theorem loaded_pair : pairLog.Loaded pairDisk :=
  loaded_split (List.cons_ne_nil _ _) (by decide) sound_pair

/-- An empty text and empty patches on it, all with the null id. -/
def crowd (count : Nat) : List Stored := List.replicate count (.ofChunk 0 0 [])

theorem getElem?_crowd {count : Nat} (known : n < count) :
    (crowd count)[n]? = some (.ofChunk 0 0 []) := by
  rw [crowd, List.getElem?_replicate, if_pos known]

theorem start_crowd (count n : Nat) : Index.start (crowd count) n = 0 := by
  rw [Index.start, List.length_eq_zero_iff, Index.writeData, List.flatMap_eq_nil_iff]
  intro stored among
  rw [List.eq_of_mem_replicate (List.mem_of_mem_take among)]
  rfl

theorem sound_crowd (count : Nat) : Index.Sound 0 0 (crowd count) := by
  intro n stored found
  rw [start_crowd, List.eq_of_mem_replicate (List.mem_of_getElem? found)]
  exact ⟨by decide, ⟨by decide, Int.natCast_nonneg _⟩, by decide, fun _ => rfl⟩

theorem count_crowd (count : Nat) : (splitLog (crowd count)).count = count := by
  rw [(holds_split _).count_eq, crowd, List.length_replicate]

theorem loaded_crowd {count : Nat} (some : count ≠ 0) (few : count ≤ 2 ^ 31) :
    (splitLog (crowd count)).Loaded (splitDisk (crowd count)) :=
  loaded_split (mt (List.replicate_eq_nil_iff _).1 some) (by rwa [crowd, List.length_replicate])
    (sound_crowd count)

/-- Every revision of a crowd has the null id. -/
theorem node_crowd {count : Nat} (few : count ≤ 2 ^ 31) (known : n < count) :
    ∃ record, (splitLog (crowd count)).record (splitDisk (crowd count)) (Int32.ofNat n) =
      .ok record ∧ record.node = .null :=
  ⟨_, record_split (by rwa [crowd, List.length_replicate]) (sound_crowd count)
    (getElem?_crowd known), rfl⟩

end Log

end RevisionLog
