import RevisionLog.Proofs.Index.Places
import RevisionLog.Proofs.Log.Records
import RevisionLog.Proofs.Log.Stored

/-!
# Records of inline logs

An inline log looks for a record where its entry says, and an entry is made of the offset field of
the record. `Log.recordPosition_inline` says when that is where the record is: exactly if the offset
field counts the chunks before it (`Outline.Placed`). What is asked for of such a revision is
answered from its own record and chunk (`Log.AnswersInPlace`). Nothing checks the offset fields, and
in a log whose offset fields say something else the record of a revision is read from the middle of
other data (`Log.misplaced_record`).
-/

namespace RevisionLog.Log

open Outline (place recordAt chunksBefore Placed)

variable {log : Log} {disk : Disk} {index : Bytes} {n : Nat}

/-- What is asked for of a revision is answered from the record at its place in the index and the
chunk behind that record. -/
structure AnswersInPlace (log : Log) (disk : Disk) (index : Bytes) (n : Nat) : Prop where
  record : ∀ {number : Revision}, log.check number = .ok n →
    log.record disk number = .ok (recordAt true index n)
  chunkLength : ∀ {number : Revision}, log.check number = .ok n →
    log.chunkLength disk number = .ok (recordAt true index n).chunkLength
  node : (Buffer.whole index 0).readAt (log.recordPosition n + 32) (Buffer.read 20) =
    .ok (recordAt true index n).node.bytes
  chunk : ∀ {files : Files}, log.openFiles disk = .ok files →
    ∃ chunk, log.storedChunk files (recordAt true index n) = .ok chunk ∧
      chunk.slice = (index.drop (place true index n + Record.size)).take
        (recordAt true index n).chunkLength.toInt.toNat ∧
      chunk.slice.length = (recordAt true index n).chunkLength.toInt.toNat

/-- The entries of a loaded inline log are those of the records at their places. -/
theorem Loaded.inline (loaded : log.Loaded disk) (inline : log.isInline)
    (file : disk log.indexFile = .ok index) (known : n < log.count) :
    Outline.Checked true index n (place true index n) ∧
      log.outline.entries[n]? =
        some (Outline.entryAt true index n (recordAt true index n).offset (place true index n)) := by
  obtain ⟨other, same, -, stand⟩ := loaded.index
  obtain rfl : index = other := Except.ok.inj (file.symm.trans same)
  rw [inline] at stand
  exact stand.nth known

/-- Where a record is looked for in an inline log. -/
theorem Loaded.recordPosition_eq (loaded : log.Loaded disk) (inline : log.isInline)
    (file : disk log.indexFile = .ok index) (known : n < log.count) :
    log.recordPosition n =
      (Outline.entryAt true index n (recordAt true index n).offset (place true index n)).offset := by
  rw [recordPosition, inline, (loaded.inline inline file known).2]

/-- A record that is looked for at its place is found there. -/
theorem Loaded.recordIn_place (loaded : log.Loaded disk) (inline : log.isInline)
    (file : disk log.indexFile = .ok index) (known : n < log.count)
    (there : log.recordPosition n = place true index n) :
    log.recordIn (.whole index 0) n = .ok (recordAt true index n) := by
  have checked := (loaded.inline inline file known).1
  rw [recordIn_eq_ok, there]
  exact ⟨Nat.le_trans (Outline.le_behind ..) checked.room, checked.chunk, rfl⟩

/-- What is asked for of a revision whose record is looked for at its place. -/
theorem Loaded.answersInPlace (loaded : log.Loaded disk) (inline : log.isInline)
    (file : disk log.indexFile = .ok index) (known : n < log.count)
    (there : log.recordPosition n = place true index n) : log.AnswersInPlace disk index n := by
  have found := loaded.recordIn_place inline file known there
  have opened : log.openIndex disk = .ok (.whole index 0) := openIndex_eq_ok.2 ⟨index, file, rfl⟩
  have record : ∀ {number : Revision}, log.check number = .ok n →
      log.record disk number = .ok (recordAt true index n) := by
    intro number checked
    rw [record_eq opened checked, found]
  refine ⟨record, fun checked => chunkLength_of_record (record checked), nodeAt_of_record found, ?_⟩
  intro files openedFiles
  have room := (loaded.inline inline file known).1.room
  rw [Outline.behind, if_pos rfl] at room
  obtain ⟨chunk, window, fits, -, slice⟩ := Buffer.window_whole room
  have same : files.index = .whole index 0 :=
    Except.ok.inj ((openFiles_eq_ok.1 openedFiles).1.symm.trans opened)
  refine ⟨chunk, ?_, slice, ?_⟩
  · rw [storedChunk, if_pos inline, same]
    show ((Buffer.whole index 0).window (log.recordPosition n + Record.size) _).mapError _ = _
    rw [there]
    exact Outcome.mapError_eq_ok.2 window
  · rw [slice, List.length_take, List.length_drop]
    show min (index.word (place true index n + 8)).toInt.toNat _ =
      (index.word (place true index n + 8)).toInt.toNat
    omega

/-- **Where an inline log looks for a record.** Behind the records and chunks of the earlier
revisions lies a record with a chunk of some length and a base that is not a later revision. The log
looks for it behind the earlier records and as many bytes as its offset field says, so at its place
exactly if the offset field counts the chunks before it. Then record, length, id and chunk of the
revision are those that lie there; and if it is so for all revisions, the search for an id finds the
first of these records that has it, provided that there is a word for their number. -/
theorem recordPosition_inline (loaded : log.Loaded disk) (inline : log.isInline)
    (file : disk log.indexFile = .ok index) :
    (∀ n < log.count,
      place true index n = Record.size * n + chunksBefore true index n ∧
      0 ≤ (recordAt true index n).chunkLength ∧ 0 ≤ (recordAt true index n).base.toInt ∧
      (recordAt true index n).base.toInt ≤ n ∧
      log.recordPosition n = Record.size * n + (recordAt true index n).offset ∧
      (log.recordPosition n = place true index n ↔ Placed true index n) ∧
      (Placed true index n → log.AnswersInPlace disk index n)) ∧
    (log.count < 2 ^ 31 → (∀ n < log.count, Placed true index n) → ∀ node : NodeId,
      log.find disk node = .ok (((List.range log.count).find? fun n =>
        (recordAt true index n).node = node).elim .bad Int32.ofNat)) := by
  have small := loaded.count_le
  have exact_iff : ∀ n < log.count,
      (log.recordPosition n = place true index n ↔ Placed true index n) := by
    intro n known
    rw [loaded.recordPosition_eq inline file known, Outline.entryAt_offset_eq_iff]
  refine ⟨fun n known => ?_, fun few placed node => ?_⟩
  · obtain ⟨chunk, nonneg, le⟩ := (loaded.inline inline file known).1.recordAt (by omega)
    refine ⟨Outline.place_inline index n, chunk, nonneg, le, ?_, exact_iff n known,
      fun placed => loaded.answersInPlace inline file known ((exact_iff n known).2 placed)⟩
    rw [loaded.recordPosition_eq inline file known, Outline.entryAt, if_pos rfl, Nat.add_comm]
  · by_cases some : log.count = 0
    · rw [find, if_pos some, some]
      rfl
    · rw [find_eq node some (openIndex_eq_ok.2 ⟨index, file, rfl⟩), searched_eq few]
      refine findIn_of_records node fun n member => ?_
      have known := List.mem_range.1 member
      exact loaded.recordIn_place inline file known ((exact_iff n known).2 (placed n known))

/-! ## Offset fields that do and do not count the chunks -/

/-- The header of an inline log without general deltas. -/
def inlined : Header := ⟨.ng, ⟨true, false⟩⟩

/-- The files of an inline log that holds a text in full and a patch on it. -/
def inlinePairDisk : Disk := fun _ => .ok (Index.write inlined pair)

/-- The log with these files. -/
def inlinePairLog : Log :=
  ⟨.ofIndex "a.i" {}, ⟨inlined, Index.entriesFrom true 0 0 pair, .loaded⟩⟩

theorem loaded_inlinePair : inlinePairLog.Loaded inlinePairDisk :=
  loaded_of_written {} rfl (List.cons_ne_nil _ _) (by decide) sound_pair rfl

/-- In an index as it is written the offset fields count the chunks, and so the second record is
found behind the first one and its chunk of four bytes. -/
theorem recordPosition_inline_pair :
    (∀ n < inlinePairLog.count, Placed true (Index.write inlined pair) n) ∧
      inlinePairLog.recordPosition 1 = 68 ∧
      inlinePairLog.AnswersInPlace inlinePairDisk (Index.write inlined pair) 1 ∧
      inlinePairLog.find inlinePairDisk .null = .ok 0 := by
  have placed : ∀ n < inlinePairLog.count, Placed true (Index.write inlined pair) n := by
    decide
  obtain ⟨records, search⟩ := recordPosition_inline loaded_inlinePair rfl
    (show inlinePairDisk inlinePairLog.indexFile = .ok (Index.write inlined pair) from rfl)
  obtain ⟨-, -, -, -, -, there, answers⟩ := records 1 (by decide)
  refine ⟨placed, ?_, answers (placed 1 (by decide)), ?_⟩
  · rw [there.2 (placed 1 (by decide))]
    decide
  · rw [search (by decide) placed .null]
    cbv

/-- Two texts in full, the second of which has an offset field that leaves out the chunk of the
first. -/
def misplacedIndex : Bytes :=
  Index.writeFrom inlined 0 0 [.ofChunk 0 3 [0x75, 1, 2, 3]] ++
    Index.writeFrom inlined 1 0 [.ofChunk 1 1 [0x75, 9]]

/-- The file of an inline log with this index. -/
def misplacedDisk : Disk := fun _ => .ok misplacedIndex

/-- The log with this file. -/
def misplacedLog : Log := ⟨.ofIndex "a.i" {}, ⟨inlined, [⟨0, 0⟩, ⟨64, 1⟩], .loaded⟩⟩

set_option maxRecDepth 4000 in
theorem entries_misplaced : Outline.Entries true misplacedIndex 0 0 0 [⟨0, 0⟩, ⟨64, 1⟩] := by
  have first : Outline.entryAt true misplacedIndex 0 0 0 = ⟨0, 0⟩ := by decide
  have second : Outline.entryAt true misplacedIndex 1 0 68 = ⟨64, 1⟩ := by decide
  rw [← first, ← second]
  exact .more ⟨by decide, by decide, by decide, by decide⟩
    (.last ⟨by decide, by decide, by decide, by decide⟩ (by decide))

theorem loaded_misplaced : misplacedLog.Loaded misplacedDisk := by
  refine ⟨?_, rfl⟩
  have word : misplacedIndex.word 0 = inlined.word := by decide
  have parsed : Header.parse (misplacedIndex.word 0) = .ok inlined := by
    rw [word]
    exact Header.parse_word rfl
  have read : misplacedLog.readOutline misplacedDisk = .ok misplacedLog.outline :=
    readOutline_of_entries (show misplacedDisk misplacedLog.indexFile = .ok misplacedIndex from rfl)
      parsed rfl entries_misplaced
  rw [Location.outline, read]

set_option maxRecDepth 4000 in
/-- The index is accepted, but the second record is looked for where the chunk of the first one is.
What is found there has an empty chunk, and so the text of the revision is lost. -/
theorem misplaced_record :
    misplacedLog.Loaded misplacedDisk ∧ misplacedLog.isInline ∧
      place true misplacedIndex 1 = 68 ∧ misplacedLog.recordPosition 1 = 64 ∧
      (recordAt true misplacedIndex 1).chunkLength = 2 ∧
      misplacedLog.chunkLength misplacedDisk 1 = .ok 0 ∧
      misplacedLog.content misplacedDisk 1 = .ok [] :=
  ⟨loaded_misplaced, rfl, by decide, rfl, by decide, by cbv, by cbv⟩

end RevisionLog.Log
