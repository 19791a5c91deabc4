import RevisionLog.Proofs.Log.Mirror
import RevisionLog.Proofs.Log.Places

/-!
# Two layouts

The same revisions can be written with their chunks in the index or in a data file of their own.
Every record and every stored chunk is found in both layouts, so the files of one mirror those of
the other (`Log.Holds.mirrors`), whether or not the chunks decode to anything. More revisions than
an index can have are rejected in both (`Log.log_of_written`). Therefore the layout cannot be told
from any answer (`Log.accords_of_layouts`), failures and visits included.
-/

namespace RevisionLog.Log

open Outcome (accords_mapError)

variable {log log' : Log} {files files' : Files} {revisions : List Stored} {stored : Stored}
  {n : Nat}

/-- The base of a revision is kept in the outline. -/
theorem Holds.readFrom_eq (holds : log.Holds files revisions) (found : revisions[n]? = some stored) :
    log.readFrom n = if log.isGeneralDelta then n else stored.base.toInt.toNat := by
  rw [readFrom, holds.entries, Index.getElem?_entriesFrom, found]
  rfl

/-- **The files of two logs that hold the same revisions mirror each other.** -/
theorem Holds.mirrors {excused : Failure → Prop} (holds : log.Holds files revisions)
    (holds' : log'.Holds files' revisions) (sound : Index.Sound 0 0 revisions)
    (few : revisions.length ≤ 2 ^ 31) (strict : log.strictCompression = log'.strictCompression)
    (general : log.isGeneralDelta = log'.isGeneralDelta) :
    Mirrors excused (· < revisions.length) log files log' files' := by
  have there : ∀ ⦃n⦄, n < revisions.length → ∃ stored, revisions[n]? = some stored :=
    fun n known => ⟨_, List.getElem?_eq_getElem known⟩
  have proper : ∀ ⦃n record⦄, n < revisions.length → log.recordIn files.index n = .ok record →
      ¬record.isLiteral → 0 ≤ log.deltaParent record ∧ log.deltaParent record < n :=
    fun n record known => holds.proper sound few (by rwa [holds.count_eq])
  refine ⟨strict, general, fun n m known less => Nat.lt_trans less known, ?_, ?_, ?_, ?_, ?_, ?_,
    ?_⟩
  · intro n known
    obtain ⟨stored, found⟩ := there known
    rw [holds.readFrom_eq found, holds'.readFrom_eq found, general]
  · intro n known
    obtain ⟨stored, found⟩ := there known
    rw [holds.recordIn_eq sound few found, holds'.recordIn_eq sound few found]
    exact .ok rfl
  · intro n known offset among
    obtain ⟨stored, found⟩ := there known
    have record := holds.recordIn_eq sound few found
    have record' := holds'.recordIn_eq sound few found
    rw [holds.index] at record ⊢
    rw [holds'.index] at record' ⊢
    refine accords_mapError ?_ _ _ _
    rcases among with rfl | rfl
    · rw [chunkLengthAt_of_record record, chunkLengthAt_of_record record']
    · rw [textLengthAt_of_record record, textLengthAt_of_record record']
  · intro n known
    obtain ⟨stored, found⟩ := there known
    have record := holds.recordIn_eq sound few found
    have record' := holds'.recordIn_eq sound few found
    rw [holds.index] at record ⊢
    rw [holds'.index] at record' ⊢
    refine accords_mapError ?_ _ _ _
    rw [nodeAt_of_record record, nodeAt_of_record record']
  · intro n record known found
    obtain ⟨stored, there⟩ := there known
    rw [holds.recordIn_eq sound few there] at found
    cases found
    obtain ⟨buffer, window, fits, start, slice⟩ := holds.storedChunk_eq sound few there
    obtain ⟨buffer', window', fits', start', slice'⟩ := holds'.storedChunk_eq sound few there
    have same := slice.trans slice'.symm
    rw [window, window']
    refine .ok ⟨same, ?_, start.trans start'.symm⟩
    rw [← fits.length_slice, ← fits'.length_slice, same]
  · intro n record known found patch
    have inside : n < log.count := by rwa [holds.count_eq]
    have inside' : n < log'.count := by rwa [holds'.count_eq]
    have earlier := proper known found patch
    rw [hasPlace_of_earlier inside earlier, hasPlace_of_earlier inside' earlier]
    exact ⟨rfl, fun _ _ => by omega⟩
  · intro n record known found patch negative
    have earlier := proper known found patch
    omega

/-! ## Too many revisions -/

/-- An index of more revisions than can be numbered is not accepted. -/
theorem outline_of_many (location : Location) {disk : Disk} {header : Header}
    (version : header.version = .ng) (sound : Index.Sound 0 0 revisions)
    (many : 2 ^ 31 < revisions.length)
    (file : disk location.indexFile = .ok (Index.write header revisions)) :
    ∃ status, location.outline disk = .empty status := by
  refine (loaded_or_empty location disk).resolve_left fun status => ?_
  have some : revisions ≠ [] := by
    rintro rfl
    exact absurd many (by decide)
  have loaded : Loaded ⟨location, location.outline disk⟩ disk := ⟨rfl, status⟩
  have few := loaded.count_le
  obtain ⟨index, same, parsed, stand⟩ := loaded.index
  obtain rfl := Except.ok.inj (file.symm.trans same)
  have made := Except.ok.inj ((parse_write version some).symm.trans parsed)
  rw [isInline, ← made] at stand
  have length := Index.length_of_entries stand rfl sound
  rw [count, Outline.count] at few
  omega

/-- What is known of a log that was opened on a written index: its outline is the one that was
written, unless that has too many revisions. -/
theorem log_of_written {disk : Disk} {indexFile : String} {options : Options} {handle : Handle}
    {header : Header} (version : header.version = .ng) (some : revisions ≠ [])
    (sound : Index.Sound 0 0 revisions)
    (file : disk indexFile = .ok (Index.write header revisions))
    (opened : Handle.open disk indexFile options = .ok handle) :
    if revisions.length ≤ 2 ^ 31 then
      handle.log disk = ⟨.ofIndex indexFile options,
        ⟨header, Index.entriesFrom header.isInline 0 0 revisions, .loaded⟩⟩
    else ∃ status, handle.log disk = ⟨.ofIndex indexFile options, .empty status⟩ := by
  split
  · rename_i few
    obtain ⟨other, same, made⟩ := open_written options version some few sound file
    rw [opened] at same
    rw [Except.ok.inj same, made]
  · rename_i many
    obtain ⟨status, empty⟩ := outline_of_many (.ofIndex indexFile options) version sound
      (Nat.lt_of_not_le many) file
    exact ⟨status, by rw [log_of_open opened, empty]⟩

/-! ## Any question -/

/-- Files that mirror each other as far as no revision goes. -/
theorem mirrors_nothing {excused : Failure → Prop}
    (strict : log.strictCompression = log'.strictCompression)
    (general : log.isGeneralDelta = log'.isGeneralDelta) (files files' : Files) :
    Mirrors excused (fun _ => False) log files log' files' :=
  ⟨strict, general, nofun, nofun, nofun, nofun, nofun, nofun, nofun, nofun⟩

/-- **The layout cannot be told from any answer.** Some revisions, be they sound texts and patches
or not, are written inline and with a data file, and both logs are opened with the same options.
Then every question has the same answer, or fails on both with the same failure but for the name of
the file, and every iteration makes the same visits before it ends in the same way. -/
theorem accords_of_layouts {disk disk' : Disk} {indexFile indexFile' : String} {options : Options}
    {handle handle' : Handle} {generalDelta : Bool} (some : revisions ≠ [])
    (sound : Index.Sound 0 0 revisions)
    (inline : disk indexFile = .ok (Index.write ⟨.ng, ⟨true, generalDelta⟩⟩ revisions))
    (split : disk' indexFile' = .ok (Index.write ⟨.ng, ⟨false, generalDelta⟩⟩ revisions))
    (data : disk' (Path.dataFile indexFile') = .ok (Index.writeData revisions))
    (opened : Handle.open disk indexFile options = .ok handle)
    (opened' : Handle.open disk' indexFile' options = .ok handle') :
    Accords (fun _ => False) (handle.log disk) disk (handle'.log disk') disk' := by
  have made := log_of_written rfl some sound inline opened
  have made' := log_of_written rfl some sound split opened'
  split at made
  · rename_i few
    rw [if_pos few] at made'
    rw [made, made']
    obtain ⟨files, read, holds⟩ := holds_of_disk (.ofIndex indexFile options) inline nofun
    obtain ⟨files', read', holds'⟩ := holds_of_disk (.ofIndex indexFile' options) split fun _ => data
    refine accords_of_mirrors (· < revisions.length) (holds.count_eq.trans holds'.count_eq.symm)
      (fun n known => by rwa [holds.count_eq] at known) ?_
    rw [read, read']
    exact .ok (holds.mirrors holds' sound few rfl rfl)
  · rename_i many
    rw [if_neg many] at made'
    obtain ⟨status, made⟩ := made
    obtain ⟨status', made'⟩ := made'
    rw [made, made']
    refine accords_of_mirrors (fun _ => False) rfl nofun ?_
    obtain ⟨files, read⟩ :=
      openFiles_of_index ⟨.ofIndex indexFile options, .empty status⟩ inline
    obtain ⟨files', read'⟩ :=
      openFiles_of_index ⟨.ofIndex indexFile' options, .empty status'⟩ split
    rw [read, read']
    refine .ok (mirrors_nothing ?_ ?_ files files') <;> rfl

/-- The pair answers in the same way inline and with a data file. -/
theorem accords_of_layouts_pair : ∃ handle handle',
    Handle.open inlinePairDisk "a.i" {} = .ok handle ∧ Handle.open pairDisk "a.i" {} = .ok handle' ∧
      Accords (fun _ => False) (handle.log inlinePairDisk) inlinePairDisk (handle'.log pairDisk)
        pairDisk :=
  ⟨_, _, rfl, rfl, accords_of_layouts (List.cons_ne_nil _ _) sound_pair
    (show inlinePairDisk "a.i" = .ok (Index.write inlined pair) from rfl)
    (show pairDisk "a.i" = .ok (Index.write {} pair) from rfl)
    (show pairDisk "a.d" = .ok (Index.writeData pair) from rfl)
    (show Handle.open inlinePairDisk "a.i" {} = .ok (.ofIndex "a.i" {}) from rfl)
    (show Handle.open pairDisk "a.i" {} = .ok (.ofIndex "a.i" {}) from rfl)⟩

end RevisionLog.Log
