import RevisionLog.Proofs.Log.Growth
import RevisionLog.Proofs.Log.Places
import RevisionLog.Proofs.Path

/-!
# What the data file is needed for

Two logs that were opened alike are `Session.Twins` as long as the same is asked of both and their
files change in the same way, but for their data files, which may hold anything at any time or not
be there. Twins cannot be told apart by what is asked about their records, and inline twins not by
what is asked about their revisions either (`Session.same_answers`): all these questions open the
index file, which is not the data file (`Path.dataFile_ne`), and the data file is looked at only
where a chunk is taken from it (`Log.storedChunk_of_inline`). Only who wants the data file itself
can tell inline twins apart (`Session.openData_differs`).
-/

namespace RevisionLog

/-- The disks hold the same but for what is at a path. -/
def Disk.SameBut (path : String) (disk disk' : Disk) : Prop :=
  ∀ other, other ≠ path → disk other = disk' other

/-- The disk with a directory at a path. -/
def Disk.blocked (disk : Disk) (path : String) : Disk := fun other =>
  if other = path then .error .isDirectory else disk other

theorem Disk.sameBut_blocked (disk : Disk) (path : String) :
    Disk.SameBut path disk (disk.blocked path) := fun _ apart => (if_neg apart).symm

theorem Location.readOutline_congr {location : Location} {disk disk' : Disk}
    (same : disk location.indexFile = disk' location.indexFile) :
    location.readOutline disk = location.readOutline disk' := by
  rw [readOutline, readOutline, openIndex_congr same]

/-- Opening a log looks at the index only. -/
theorem Handle.open_congr {disk disk' : Disk} {indexFile : String} (options : Options)
    (same : disk indexFile = disk' indexFile) :
    Handle.open disk indexFile options = Handle.open disk' indexFile options := by
  have read : (Location.ofIndex indexFile options).readOutline disk =
      (Location.ofIndex indexFile options).readOutline disk' := Location.readOutline_congr same
  rw [Handle.open, Handle.open, read]

/-- The outline that a first question reads is that of the index, too. -/
theorem Handle.log_congr {disk disk' : Disk} {handle : Handle}
    (same : disk handle.indexFile = disk' handle.indexFile) :
    handle.log disk = handle.log disk' := by
  rw [Handle.log, Handle.log, Location.outline, Location.outline, Location.readOutline_congr same]

namespace Log

/-- What is asked about the records of a log has the same answers on two disks. -/
structure SameRecords (log : Log) (disk disk' : Disk) : Prop where
  openIndex : log.openIndex disk = log.openIndex disk'
  record : ∀ number, log.record disk number = log.record disk' number
  chunkLength : ∀ number, log.chunkLength disk number = log.chunkLength disk' number
  textLength : ∀ number, log.textLength disk number = log.textLength disk' number
  link : ∀ number, log.link disk number = log.link disk' number
  parents : ∀ number, log.parents disk number = log.parents disk' number
  node : ∀ number, log.node disk number = log.node disk' number
  find : ∀ node, log.find disk node = log.find disk' node
  /-- The visits are the same, how the iteration ends and what the visitor ends with. -/
  run : ∀ {σ : Type} (start stop : Revision) (visitor : Visitor σ) (state : σ),
    log.run disk start stop false visitor state = log.run disk' start stop false visitor state

/-- What is asked about the revisions of a log has the same answers on two disks. -/
structure SameRevisions (log : Log) (disk disk' : Disk) : Prop
    extends SameRecords log disk disk' where
  content : ∀ number, log.content disk number = log.content disk' number
  runContent : ∀ {σ : Type} (start stop : Revision) (visitor : Visitor σ) (state : σ),
    log.run disk start stop true visitor state = log.run disk' start stop true visitor state

variable {log : Log} {disk disk' : Disk}

/-! ## Files -/

section Files

variable (index : Buffer) (data data' : Except Failure Buffer)

/-- The records that a text is made from are in the index. By induction on the revision. -/
theorem chain_of_index (revision : Nat) (later : List Record) :
    log.chain ⟨index, data⟩ revision later = log.chain ⟨index, data'⟩ revision later := by
  induction revision using Nat.strongRecOn generalizing later with
  | ind revision ih =>
    rw [chain, chain]
    cases log.recordIn index revision with
    | error failure => rfl
    | ok record =>
      dsimp only
      split
      · rfl
      · split
        · exact ih _ (by omega) _
        · rfl

/-- An iteration without texts needs the index only. -/
theorem visitRecords_of_index {σ : Type} (visitor : Visitor σ) (revisions : List Nat) (state : σ) :
    log.visitRecords ⟨index, data⟩ visitor revisions state =
      log.visitRecords ⟨index, data'⟩ visitor revisions state := by
  induction revisions generalizing state with
  | nil => rfl
  | cons revision revisions ih => simp only [visitRecords, ih]

variable (inline : log.isInline)

include inline

/-- **The chunks of an inline log are taken from the index.** -/
theorem storedChunk_of_inline (record : Record) :
    log.storedChunk ⟨index, data⟩ record = log.storedChunk ⟨index, data'⟩ record := by
  simp only [storedChunk, if_pos inline]

theorem chunk_of_inline (record : Record) :
    log.chunk ⟨index, data⟩ record = log.chunk ⟨index, data'⟩ record := by
  rw [chunk, chunk, storedChunk_of_inline index data data' inline]

theorem rebuild_of_inline (revision : Nat) :
    log.rebuild ⟨index, data⟩ revision = log.rebuild ⟨index, data'⟩ revision := by
  have chunks : log.chunk ⟨index, data⟩ = log.chunk ⟨index, data'⟩ :=
    funext (chunk_of_inline index data data' inline)
  have replays : log.replay ⟨index, data⟩ = log.replay ⟨index, data'⟩ := by
    funext text later
    rw [replay, replay, chunks]
  rw [rebuild, rebuild, chain_of_index index data data', chunks, replays]

theorem readAfter_of_inline (revision : Nat) (previous : Option (Nat × Reader)) :
    log.readAfter ⟨index, data⟩ revision previous =
      log.readAfter ⟨index, data'⟩ revision previous := by
  have bases : ∀ record, log.baseAfter ⟨index, data⟩ record previous =
      log.baseAfter ⟨index, data'⟩ record previous := by
    intro record
    simp only [baseAfter, parentText, strayRecord, rebuild_of_inline index data data' inline]
  have contents : ∀ record, log.contentAfter ⟨index, data⟩ record previous =
      log.contentAfter ⟨index, data'⟩ record previous := by
    intro record
    rw [contentAfter, contentAfter, chunk_of_inline index data data' inline, bases]
  simp only [readAfter, contents]

/-- An iteration over an inline log needs the index only. -/
theorem visitContents_of_inline {σ : Type} (visitor : Visitor σ) (first : Nat)
    (revisions : List Nat) (previous : Option (Nat × Reader)) (state : σ) :
    log.visitContents ⟨index, data⟩ visitor first revisions previous state =
      log.visitContents ⟨index, data'⟩ visitor first revisions previous state := by
  induction revisions generalizing previous state with
  | nil => rfl
  | cons revision revisions ih =>
    simp only [visitContents, readAfter_of_inline index data data' inline, ih]

end Files

/-! ## Questions -/

variable (same : log.openIndex disk = log.openIndex disk')

include same

/-- What is made of the files is the same if it is the same for all data files. -/
theorem openFiles_bind_congr {α : Type} {next : Files → Except Failure α}
    (next_congr : ∀ index data data', next ⟨index, data⟩ = next ⟨index, data'⟩) :
    log.openFiles disk >>= next = log.openFiles disk' >>= next := by
  cases opened : log.openIndex disk with
  | error failure => rw [openFiles_of_error opened, openFiles_of_error (same.symm.trans opened)]
  | ok index =>
    rw [openFiles_of_openIndex opened, openFiles_of_openIndex (same.symm.trans opened)]
    exact next_congr _ _ _

/-- An iteration is the same if its visits are the same for all data files. -/
theorem run_congr {σ : Type} (start stop : Revision) {withContent : Bool} {visitor : Visitor σ}
    (visits : withContent = true → ∀ index data data' first revisions state,
      log.visitContents ⟨index, data⟩ visitor first revisions none state =
        log.visitContents ⟨index, data'⟩ visitor first revisions none state) (state : σ) :
    log.run disk start stop withContent visitor state =
      log.run disk' start stop withContent visitor state := by
  rw [run, run]
  split
  · rfl
  cases log.checkRange start stop with
  | error failure => rfl
  | ok range =>
    cases opened : log.openIndex disk with
    | error failure => rw [openFiles_of_error opened, openFiles_of_error (same.symm.trans opened)]
    | ok index =>
      rw [openFiles_of_openIndex opened, openFiles_of_openIndex (same.symm.trans opened)]
      cases withContent with
      | false => exact visitRecords_of_index _ _ _ _ _ _
      | true => exact visits rfl _ _ _ _ _ _

/-- **What is asked about records is answered from the index.** -/
theorem sameRecords_of_openIndex : log.SameRecords disk disk' := by
  have record : ∀ number, log.record disk number = log.record disk' number := by
    intro number
    rw [Log.record, Log.record, same]
  have field : ∀ number offset, log.field disk number offset = log.field disk' number offset := by
    intro number offset
    rw [Log.field, Log.field, same]
  refine ⟨same, record, fun number => field number 8, fun number => field number 12,
    fun number => ?_, fun number => ?_, fun number => ?_, fun node => ?_, fun start stop visitor =>
      run_congr same start stop fun texts => absurd texts Bool.false_ne_true⟩
  · rw [link, link, record]
  · rw [parents, parents, record]
  · rw [Log.node, Log.node, record]
  · rw [find, find, same]

/-- **What is asked about the revisions of an inline log is answered from the index.** -/
theorem sameRevisions_of_openIndex (inline : log.isInline) : log.SameRevisions disk disk' where
  toSameRecords := sameRecords_of_openIndex same
  content number := by
    rw [content, content]
    cases log.check number with
    | error failure => rfl
    | ok revision =>
      refine openFiles_bind_congr same fun index data data' => ?_
      rw [rebuild_of_inline index data data' inline]
  runContent start stop visitor :=
    run_congr same start stop fun _ index data data' first revisions =>
      visitContents_of_inline index data data' inline visitor first revisions none

end Log

/-! ## Logs in use -/

namespace Session

/-- Logs in use that were opened alike. The same has been asked of both since, and their files were
the same at all times, but for the data file. -/
inductive Twins (indexFile : String) (options : Options) : Session → Session → Prop
  | opened {disk disk' : Disk} {handle handle' : Handle}
      (beside : Disk.SameBut (Path.dataFile indexFile) disk disk')
      (opened : Handle.open disk indexFile options = .ok handle)
      (opened' : Handle.open disk' indexFile options = .ok handle') :
      Twins indexFile options ⟨handle, disk⟩ ⟨handle', disk'⟩
  | asked {session session' : Session} (twins : Twins indexFile options session session') :
      Twins indexFile options session.asked session'.asked
  | changed {session session' : Session} (twins : Twins indexFile options session session')
      {disk disk' : Disk} (beside : Disk.SameBut (Path.dataFile indexFile) disk disk') :
      Twins indexFile options { session with disk := disk } { session' with disk := disk' }

/-- What is the same of twins. -/
structure Alike (indexFile : String) (options : Options) (session session' : Session) : Prop where
  handle : session.handle = session'.handle
  location : session.handle.toLocation = .ofIndex indexFile options
  index : session.disk indexFile = session'.disk indexFile

variable {indexFile : String} {options : Options} {session session' : Session}

theorem Alike.log (alike : Alike indexFile options session session') :
    session.log = session'.log := by
  have file : session.handle.indexFile = indexFile := by rw [alike.location]; rfl
  rw [Session.log, Session.log, ← alike.handle]
  exact Handle.log_congr (by rw [file, alike.index])

theorem Alike.openIndex (alike : Alike indexFile options session session') :
    session.log.openIndex session.disk = session.log.openIndex session'.disk := by
  have file : session.log.indexFile = indexFile := congrArg Location.indexFile alike.location
  exact Location.openIndex_congr (by rw [file, alike.index])

/-- Whatever is asked and however the data files change, twins stay alike. By induction on what
happens. -/
theorem Twins.alike (named : Path.extension? indexFile.toList = some ['i'])
    (twins : Twins indexFile options session session') :
    Alike indexFile options session session' := by
  have apart : indexFile ≠ Path.dataFile indexFile := (Path.dataFile_ne named).symm
  induction twins with
  | opened beside opened opened' =>
    have index := beside indexFile apart
    rw [Handle.open_congr options index] at opened
    obtain rfl := Except.ok.inj (opened.symm.trans opened')
    exact ⟨rfl, congrArg Log.toLocation (Log.log_of_open opened), index⟩
  | asked twins ih =>
    have same := ih.log
    exact ⟨congrArg Log.handle same, ih.location, ih.index⟩
  | changed twins beside ih => exact ⟨ih.handle, ih.location, beside indexFile apart⟩

/-- **What is asked about a log does not depend on its data file, unless its chunks are there.** An
index with the extension `i` is opened in the same way whatever the data file holds, and also if
there is none. And logs in use that differ in their data file only, now and before, are the same
log, with its header, status and number of revisions; what is asked about their records has the same
answers, with the same visits in an iteration without texts; and if they are inline, so has all that
is asked about their revisions, with the same texts. -/
theorem same_answers (indexFile : String) (options : Options)
    (named : Path.extension? indexFile.toList = some ['i']) :
    (∀ {disk disk' : Disk}, Disk.SameBut (Path.dataFile indexFile) disk disk' →
      Handle.open disk indexFile options = Handle.open disk' indexFile options) ∧
    ∀ {session session' : Session}, Twins indexFile options session session' →
      session.log = session'.log ∧ session.log.SameRecords session.disk session'.disk ∧
        (session.log.isInline → session.log.SameRevisions session.disk session'.disk) := by
  refine ⟨fun beside => ?_, fun twins => ?_⟩
  · exact Handle.open_congr options (beside indexFile (Path.dataFile_ne named).symm)
  · have alike := twins.alike named
    exact ⟨alike.log, Log.sameRecords_of_openIndex alike.openIndex,
      Log.sameRevisions_of_openIndex alike.openIndex⟩

theorem log_asked (session : Session) : session.asked.log = session.log := rfl

/-- A log whose outline is up to date is the one that is opened. -/
theorem log_of_loaded {log : Log} {disk : Disk} (loaded : log.Loaded disk)
    (location : log.toLocation = .ofIndex indexFile options) :
    Session.log ⟨.ofIndex indexFile options, disk⟩ = log := by
  have outline := loaded.outline
  obtain ⟨_, _⟩ := log
  subst location
  exact congrArg (Log.mk _) outline.symm

set_option maxRecDepth 4000 in
/-- With a directory in the place of the data file the records of the pair are still there and its
texts are not, but those of the inline pair are. -/
theorem same_answers_pair :
    Log.pairLog.record (Log.pairDisk.blocked "a.d") 1 = Log.pairLog.record Log.pairDisk 1 ∧
      (Log.pairLog.content (Log.pairDisk.blocked "a.d") 1).toOption = none ∧
      Log.inlinePairLog.content (Log.inlinePairDisk.blocked "a.d") 0 = .ok [1, 2, 3] := by
  have named : Path.extension? "a.i".toList = some ['i'] := by decide
  have data : Path.dataFile "a.i" = "a.d" := by decide
  have twins : ∀ disk : Disk, Twins "a.i" {} (asked ⟨.ofIndex "a.i" {}, disk⟩)
      (asked ⟨.ofIndex "a.i" {}, disk.blocked "a.d"⟩) := by
    intro disk
    refine .asked (.opened ?_ rfl rfl)
    rw [data]
    exact disk.sameBut_blocked "a.d"
  have pair : (asked ⟨.ofIndex "a.i" {}, Log.pairDisk⟩).log = Log.pairLog :=
    (log_asked _).trans (log_of_loaded Log.loaded_pair rfl)
  have inline : (asked ⟨.ofIndex "a.i" {}, Log.inlinePairDisk⟩).log = Log.inlinePairLog :=
    (log_asked _).trans (log_of_loaded Log.loaded_inlinePair rfl)
  obtain ⟨-, records, -⟩ := (same_answers "a.i" {} named).2 (twins Log.pairDisk)
  obtain ⟨-, -, revisions⟩ := (same_answers "a.i" {} named).2 (twins Log.inlinePairDisk)
  rw [pair] at records
  rw [inline] at revisions
  have text : Log.inlinePairLog.content Log.inlinePairDisk 0 = .ok [1, 2, 3] := by cbv
  exact ⟨(records.record 1).symm, by cbv, ((revisions rfl).content 0).symm.trans text⟩

/-- Who wants the data file itself sees what is there, also in the case of an inline log. -/
theorem openData_differs :
    Path.extension? "a.i".toList = some ['i'] ∧
      Disk.SameBut (Path.dataFile "a.i") Log.inlinePairDisk (Log.inlinePairDisk.blocked "a.d") ∧
      Log.inlinePairLog.Loaded Log.inlinePairDisk ∧ Log.inlinePairLog.isInline ∧
      Log.inlinePairLog.openData Log.inlinePairDisk ≠
        Log.inlinePairLog.openData (Log.inlinePairDisk.blocked "a.d") := by
  have data : Path.dataFile "a.i" = "a.d" := by decide
  have there : Log.inlinePairLog.openData Log.inlinePairDisk =
      .ok (.ofBytes (Index.write Log.inlined Log.pair)) := rfl
  have blocked : Log.inlinePairLog.openData (Log.inlinePairDisk.blocked "a.d") =
      .error (.file "a.d" .openData .isDirectory) := by cbv
  refine ⟨by decide, ?_, Log.loaded_inlinePair, rfl, ?_⟩
  · rw [data]
    exact Log.inlinePairDisk.sameBut_blocked "a.d"
  · rw [there, blocked]
    intro same
    cases same

end Session

end RevisionLog
