import RevisionLog.Proofs.Log.Questions
import RevisionLog.Proofs.Log.Streaming

/-!
# Opening a log

A log remembers the outline of its index as it was at some time, whatever became of the index since
(`Log.Remembered`, `Log.remembered_of_open`). Either the whole index was read, or the outline has no
revisions at all, and then every question about a revision is refused and nothing is visited
(`Log.Blank`). With a strict index the outline is read on opening, and this fails exactly where the
first question would find nothing but a reason (`Log.open_strict`).
-/

namespace RevisionLog

namespace Log

/-- The outline is that of the index as some disk had it. -/
def Remembered (log : Log) : Prop := ∃ disk, log.outline = log.toLocation.outline disk

/-- Nothing is known of any revision, whatever the files hold and whichever file the log is of. -/
structure Blank (log : Log) : Prop where
  count : log.count = 0
  refuses : ∀ path number, ∃ invalid, ∀ disk, FileLog.Replies
    (fun outcome => outcome = .error (.invalidRevision invalid)) ⟨log, path⟩ disk number
  find : ∀ disk node, log.find disk node = .ok .bad
  run : ∀ {σ : Type} (disk : Disk) (start stop : Revision) (withContent : Bool)
    (visitor : Visitor σ) (state : σ),
    log.run disk start stop withContent visitor state = .stop (.ok ()) state

variable {log : Log} {disk : Disk} {indexFile : String} {options : Options} {handle : Handle}

/-! ## What is remembered -/

theorem outline_of_ok {location : Location} {outline : Outline}
    (read : location.readOutline disk = .ok outline) : location.outline disk = outline := by
  rw [Location.outline, read]

theorem outline_of_error {location : Location} {failure : Failure}
    (lost : location.readOutline disk = .error failure) : location.outline disk =
      .empty (if failure.isCorruption then .corrupt failure else .unreadable failure) := by
  rw [Location.outline, lost]

/-- A log whose outline has been read keeps it, and one whose outline has not been reads it now. -/
theorem remembered_of_open (opened : Handle.open disk indexFile options = .ok handle)
    (later : Disk) : (handle.log later).Remembered := by
  rw [Handle.open] at opened
  split at opened
  · obtain ⟨outline, read, same⟩ := Outcome.bind_eq_ok.1 opened
    cases same
    exact ⟨disk, (outline_of_ok read).symm⟩
  · cases opened
    exact ⟨later, rfl⟩

theorem Loaded.remembered (loaded : log.Loaded disk) : log.Remembered := ⟨disk, loaded.outline⟩

theorem Remembered.loaded_or_empty (remembered : log.Remembered) :
    (∃ disk, log.Loaded disk) ∨ log.count = 0 := by
  obtain ⟨disk, outline⟩ := remembered
  rcases Log.loaded_or_empty log.toLocation disk with status | ⟨status, empty⟩
  · exact .inl ⟨disk, outline, outline ▸ status⟩
  · rw [empty] at outline
    exact .inr (by rw [count, outline]; rfl)

theorem Remembered.count_le (remembered : log.Remembered) : log.count ≤ 2 ^ 31 := by
  rcases remembered.loaded_or_empty with ⟨disk, loaded⟩ | none
  · exact loaded.count_le
  · omega

/-- The word before the number of revisions is that of the last one, which `Revision.resolve` and
`Log.checkRange` reckon with. The number may be negative as a word, but words wrap around. -/
theorem Remembered.last_word (remembered : log.Remembered) :
    (Int32.ofNat log.count - 1).toInt = log.count - 1 := by
  have most := remembered.count_le
  have word : (Int32.ofNat log.count).toInt = (log.count : Int).bmod (2 ^ 32) := Int32.toInt_ofNat
  have one : (1 : Int32).toInt = 1 := rfl
  rw [Int32.toInt_sub, word, one, Int.bmod_sub_bmod, Int.bmod]
  omega

theorem Remembered.readFrom_le (remembered : log.Remembered) {revision : Nat}
    (known : revision < log.count) : log.readFrom revision ≤ revision := by
  rcases remembered.loaded_or_empty with ⟨disk, loaded⟩ | none
  · exact loaded.readFrom_le known
  · omega

/-- An iteration over a log without revisions visits nothing, whatever the range. -/
theorem run_of_no_revisions {σ : Type} (none : log.count = 0) (disk : Disk)
    (start stop : Revision) (withContent : Bool) (visitor : Visitor σ) (state : σ) :
    log.run disk start stop withContent visitor state = .stop (.ok ()) state := by
  rw [run, if_pos none]

theorem blank_of_no_revisions (none : log.count = 0) : log.Blank := by
  refine ⟨none, fun path number => ?_, fun disk node => ?_, run_of_no_revisions none⟩
  · have refused : log.check number = .error _ := check_of_not_hasRevision (by rw [HasRevision]; omega)
    exact ⟨_, fun disk => FileLog.replies_of_refused refused⟩
  · rw [find, if_pos none]
    rfl

/-! ## Strict opening -/

/-- An index that can be read is there with all its records, or not there. -/
theorem status_of_readOutline {location : Location} {outline : Outline}
    (read : location.readOutline disk = .ok outline) :
    outline.status = .missing ∨ outline.status = .loaded := by
  obtain ⟨index, -, rest⟩ := Outcome.bind_eq_ok.1 read
  split at rest
  · rw [← Except.ok.inj rest]
    exact .inl rfl
  · obtain ⟨found, -, same⟩ := Outcome.bind_eq_ok.1 rest
    rw [← Except.ok.inj same]
    exact .inr rfl

/-- A strict opening reads the outline and keeps it. -/
theorem open_strict_eq (disk : Disk) (indexFile : String) (options : Options) :
    Handle.open disk indexFile { options with strictIndex := true } =
      ((Location.ofIndex indexFile options).readOutline disk).map
        fun outline => ⟨.ofIndex indexFile options, some outline⟩ := by
  show ((Location.ofIndex indexFile options).readOutline disk >>= fun outline =>
    (.ok ⟨.ofIndex indexFile options, some outline⟩ : Except Failure Handle)) = _
  cases (Location.ofIndex indexFile options).readOutline disk <;> rfl

/-- An outline that was not read from an index knows nothing. -/
theorem blank_of_status {location : Location}
    (status : (location.outline disk).status ≠ .loaded) : Blank ⟨location, location.outline disk⟩ := by
  obtain ⟨reason, empty⟩ := (Log.loaded_or_empty location disk).resolve_left status
  refine blank_of_no_revisions ?_
  rw [count, empty]
  rfl

/-- A status that tells why an index could not be read is neither of the other two. -/
theorem status_of_failure (failure : Failure) :
    ¬((if failure.isCorruption then Status.corrupt failure else .unreadable failure) = .missing ∨
      (if failure.isCorruption then Status.corrupt failure else .unreadable failure) = .loaded) := by
  split <;> simp

/-- **An unusable index is all or nothing.** Opening a log without a strict index always succeeds.
With one it succeeds exactly if the first question would find the index missing or read it as a
whole, and then the log is the same from then on. If it fails, the reason is what the first question
would keep as the status. In every status but that of an index that was read, the log knows nothing
of any revision. -/
theorem open_strict (disk : Disk) (indexFile : String) (options : Options) :
    ∃ handle, Handle.open disk indexFile { options with strictIndex := false } = .ok handle ∧
      let log := handle.log disk
      let opened := Handle.open disk indexFile { options with strictIndex := true }
      ((∃ strict, opened = .ok strict) ↔
        log.outline.status = .missing ∨ log.outline.status = .loaded) ∧
      (∀ strict, opened = .ok strict → ∀ later, strict.log later = log) ∧
      (∀ failure, opened = .error failure → log.outline.status =
        if failure.isCorruption then .corrupt failure else .unreadable failure) ∧
      (log.outline.status ≠ .loaded → log.Blank) := by
  have lenient : Handle.open disk indexFile { options with strictIndex := false } =
      .ok (.ofIndex indexFile options) := rfl
  have asked : (Handle.ofIndex indexFile options).log disk =
      ⟨.ofIndex indexFile options, (Location.ofIndex indexFile options).outline disk⟩ := rfl
  refine ⟨_, lenient, ?_⟩
  rw [asked, open_strict_eq]
  generalize Location.ofIndex indexFile options = location
  cases read : location.readOutline disk with
  | error failure =>
    have status := outline_of_error read
    refine ⟨⟨fun ⟨_, opened⟩ => (nomatch opened), fun good => ?_⟩, fun _ opened => (nomatch opened),
      fun other opened => ?_, blank_of_status⟩
    · dsimp only at good
      rw [status] at good
      exact absurd good (status_of_failure failure)
    · dsimp only
      rw [status, ← Except.error.inj opened]
      rfl
  | ok outline =>
    have kept := outline_of_ok read
    refine ⟨⟨fun _ => ?_, fun _ => ⟨_, rfl⟩⟩, fun strict opened later => ?_,
      fun _ opened => (nomatch opened), blank_of_status⟩
    · dsimp only
      rw [kept]
      exact status_of_readOutline read
    · rw [kept, ← Except.ok.inj opened]
      rfl

end Log

end RevisionLog
