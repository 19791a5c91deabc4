import Mathlib
import RevisionLog.Proofs.Log.Damage
import RevisionLog.Proofs.Log.Stored
import RevisionLog.Proofs.Log.Streaming

/-!
# Patches on later revisions

In a log with general deltas a patch names the revision that it applies to, and one that names
itself, a later revision or none is damaged. A question for the content finds that out
(`Log.content_of_later`). An iteration that starts at the patch does not: it asks only whether there
is a place for the record of the parent. `Log.run_of_later` says exactly what it does instead.

* If the chunk of the patch cannot be had, or nothing can be made of it and of what the parent
  rebuilds to, the iteration fails as it should.
* If there is no place for the parent, as there may not be in an inline log, it breaks down.
* If the parent can be rebuilt and the patch applies to it, the visitor is called with a text that
  no question for the content gives.
-/

namespace RevisionLog.Log

open Outcome (FailsBy)

variable {log : Log} {disk : Disk} {files : Files} {number : Revision} {record : Record}

/-- The patch of a record is on its own revision, on a later one or on none. -/
structure PatchOnLater (log : Log) (record : Record) : Prop where
  general : log.isGeneralDelta
  patch : ¬record.isLiteral
  later : record.base.toInt < 0 ∨ record.revision ≤ record.base.toInt

theorem PatchOnLater.parent (later : log.PatchOnLater record) :
    log.deltaParent record = record.base.toInt := by
  rw [deltaParent, if_pos later.general]

theorem PatchOnLater.not_earlier (h : log.PatchOnLater record) :
    ¬(0 ≤ log.deltaParent record ∧ log.deltaParent record < record.revision) := by
  have later := h.later
  rw [h.parent]
  omega

theorem recordIn_of_record (opened : log.openFiles disk = .ok files)
    (found : log.record disk number = .ok record) :
    log.recordIn files.index record.revision = .ok record := by
  rw [← record_eq (openFiles_eq_ok.1 opened).1 (revision_of_record found), found]

/-- **A question for the content notices a patch on a later revision.** -/
theorem content_of_later (opened : log.openFiles disk = .ok files)
    (found : log.record disk number = .ok record) (later : log.PatchOnLater record) :
    log.content disk number =
      .error (.deltaParent log.indexFile record.revision record.base.toInt true) := by
  have rebuilt := rebuild_of_later (recordIn_of_record opened found) later.patch later.not_earlier
  rw [content, revision_of_record found]
  show (log.openFiles disk >>= fun files => log.rebuild files record.revision >>= _) = _
  rw [opened]
  show log.rebuild files record.revision >>= _ = _
  rw [rebuilt, later.parent]
  rfl

/-- An iteration over one revision of a log with general deltas starts with it. -/
theorem run_one {σ : Type} (general : log.isGeneralDelta) (opened : log.openFiles disk = .ok files)
    {revision : Nat} (checked : log.check number = .ok revision) (visitor : Visitor σ) (state : σ) :
    log.run disk number number true visitor state =
      log.visitContents files visitor revision [revision] none state := by
  rw [run_of_check opened checked, readFrom_of_general general, Nat.add_sub_cancel_left]
  rfl

/-- Where the text cannot be made, nothing is visited. -/
theorem stop_one {σ : Type} {failure : Failure}
    (read : log.recordIn files.index record.revision = .ok record)
    (failed : log.contentAfter files record none = .error failure) (visitor : Visitor σ)
    (state : σ) : log.visitContents files visitor record.revision [record.revision] none state =
      .stop (.error failure) state := by
  have lost : log.readAfter files record.revision none = .error failure := by
    rw [readAfter, read]
    show log.contentAfter files record none >>= _ = _
    rw [failed]
    rfl
  rw [visitContents, lost]

/-- A visit of a single revision, if its text can be made. -/
theorem visits_one {σ : Type} {revision : Nat} {text : Bytes}
    (read : log.readAfter files revision none = .ok (record, .ofBytes text)) (visitor : Visitor σ)
    (state : σ) : (log.visitContents files visitor revision [revision] none state).visits =
      [⟨record, some (.ofBytes text)⟩] := by
  rw [visitContents, read]
  dsimp only
  rw [if_neg (Nat.lt_irrefl _), (Reader.at_ofBytes text).reset]
  dsimp only
  split
  · rfl
  · rfl

/-- Where there is no place for the parent of a patch whose chunk is there, nothing guards against
it. -/
theorem contentAfter_of_no_place {chunk : Reader} (read : log.chunk files record = .ok chunk)
    (patch : ¬record.isLiteral) (nowhere : ¬log.hasPlace (log.deltaParent record)) :
    log.contentAfter files record none =
      .error (.deltaParent log.indexFile record.revision (log.deltaParent record) false) := by
  rw [contentAfter, read]
  show (if record.isLiteral then _ else _) = _
  rw [if_neg patch, baseAfter, parentText, if_neg nowhere]
  rfl

/-- Where there is a place for the parent, or the chunk cannot be had, a text that cannot be made is
lost to damage. -/
theorem blames_contentAfter (readable : log.Readable files) (patch : ¬record.isLiteral)
    (guarded : (log.chunk files record).toOption = none ∨ log.hasPlace (log.deltaParent record)) :
    FailsBy log.Damage (log.contentAfter files record none) := by
  have covers := covers_of_readable (fun _ => id) readable
  refine (failsBy_chunk covers record).bind fun chunk read => ?_
  have place : log.hasPlace (log.deltaParent record) := by
    rcases guarded with lost | place
    · rw [read] at lost
      cases lost
    · exact place
  rw [if_neg patch]
  exact (failsBy_parentText covers record fun nowhere => absurd place nowhere).bind fun base _ =>
    failsBy_patched covers.damage record chunk base

/-- The text that is made of a patch on a revision that is not an earlier one. A negative number has
no text. -/
def laterText? (log : Log) (files : Files) (record : Record) : Option Bytes :=
  if log.hasPlace record.base.toInt ∧ 0 ≤ record.base.toInt then
    (log.text? files record.base.toInt.toNat).bind (log.patched? files record)
  else none

/-- A negative delta parent has no record to go on from. -/
theorem contentAfter_of_negative (patch : ¬record.isLiteral)
    (place : log.hasPlace (log.deltaParent record)) (negative : log.deltaParent record < 0) :
    (log.contentAfter files record none).toOption = none := by
  rw [contentAfter]
  simp only [patch, Bool.false_eq_true, if_false, baseAfter, parentText, place, if_true, negative]
  cases log.chunk files record <;> rfl

/-- If there is a place for the parent, the text is made, or not. -/
theorem PatchOnLater.toOption_contentAfter (later : log.PatchOnLater record) (sound : files.Sound)
    (place : log.hasPlace record.base.toInt) :
    (log.contentAfter files record none).toOption =
      (log.laterText? files record).map Reader.ofBytes := by
  rw [laterText?, ← later.parent]
  rw [← later.parent] at place
  by_cases nonneg : 0 ≤ log.deltaParent record
  · rw [if_pos ⟨place, nonneg⟩]
    exact Log.toOption_contentAfter sound retained_none later.patch place nonneg
  · rw [if_neg fun both => nonneg both.2]
    exact contentAfter_of_negative later.patch place (Int.not_le.1 nonneg)

/-- There is a place for the parent if a text can be made. -/
theorem hasPlace_of_laterText {text : Bytes} (told : log.laterText? files record = some text) :
    log.hasPlace record.base.toInt := by
  rw [laterText?] at told
  split at told
  · rename_i both
    exact both.1
  · cases told

/-- If there is no place for the parent, the iteration breaks down. -/
theorem PatchOnLater.breakdown {σ : Type} (later : log.PatchOnLater record)
    (read : log.recordIn files.index record.revision = .ok record)
    (there : (log.chunk files record).toOption ≠ none) (nowhere : ¬log.hasPlace record.base.toInt)
    (visitor : Visitor σ) (state : σ) :
    log.visitContents files visitor record.revision [record.revision] none state =
      .stop (.error (.deltaParent log.indexFile record.revision record.base.toInt false))
        state := by
  obtain ⟨chunk, chunked⟩ := Option.ne_none_iff_exists'.1 there
  rw [← later.parent] at nowhere ⊢
  exact stop_one read
    (contentAfter_of_no_place (Outcome.toOption_eq_some.1 chunked) later.patch nowhere) visitor state

/-- If a text can be made, the visitor is called with it. -/
theorem PatchOnLater.visits {σ : Type} (later : log.PatchOnLater record) (sound : files.Sound)
    (read : log.recordIn files.index record.revision = .ok record) {text : Bytes}
    (told : log.laterText? files record = some text) (visitor : Visitor σ) (state : σ) :
    (log.visitContents files visitor record.revision [record.revision] none state).visits =
      [⟨record, some (.ofBytes text)⟩] := by
  have content := later.toOption_contentAfter sound (hasPlace_of_laterText told)
  rw [told] at content
  exact visits_one (readAfter_eq_ok.2 ⟨read, Outcome.toOption_eq_some.1 content⟩) visitor state

/-- If the chunk cannot be had, or there is a place for the parent and no text, the damage is
noticed. -/
theorem PatchOnLater.lost (later : log.PatchOnLater record) (sound : files.Sound)
    (readable : log.Readable files)
    (guarded : (log.chunk files record).toOption = none ∨
      log.hasPlace record.base.toInt ∧ log.laterText? files record = none) :
    ∃ failure, log.contentAfter files record none = .error failure ∧ failure.IsCorrupt := by
  have blames := blames_contentAfter readable later.patch
    (guarded.imp_right fun lost => by rw [later.parent]; exact lost.1)
  cases content : log.contentAfter files record none with
  | error failure => exact ⟨failure, rfl, (blames content).isCorrupt⟩
  | ok text =>
    rcases guarded with lost | ⟨place, lost⟩
    · rw [contentAfter] at content
      obtain ⟨chunk, chunked, -⟩ := Outcome.bind_eq_ok.1 content
      rw [chunked] at lost
      cases lost
    · have told := later.toOption_contentAfter sound place
      rw [content, lost] at told
      cases told

/-- **An iteration that starts at a patch on a later revision**, which a question for its content
rejects. It fails because of damage, with nothing visited, if the chunk cannot be had, or if there
is a place for the parent and no text can be made. If there is no place, as in an inline log for a
number that is not one of its revisions, it breaks down, and otherwise the visitor is called with the
text that is made. -/
theorem run_of_later (opened : log.openFiles disk = .ok files) (readable : log.Readable files)
    (found : log.record disk number = .ok record) (later : log.PatchOnLater record) :
    log.content disk number =
        .error (.deltaParent log.indexFile record.revision record.base.toInt true) ∧
      ∀ {σ : Type} (visitor : Visitor σ) (state : σ),
        let run := log.run disk number number true visitor state
        ((∃ failure, run = .stop (.error failure) state ∧ failure.IsCorrupt) ↔
          (log.chunk files record).toOption = none ∨
            log.hasPlace record.base.toInt ∧ log.laterText? files record = none) ∧
        ((log.chunk files record).toOption ≠ none → ¬log.hasPlace record.base.toInt →
          run = .stop (.error (.deltaParent log.indexFile record.revision record.base.toInt false))
            state) ∧
        ∀ text, log.laterText? files record = some text →
          run.visits = [⟨record, some (.ofBytes text)⟩] := by
  refine ⟨content_of_later opened found later, fun visitor state => ?_⟩
  have sound := sound_of_openFiles opened
  have read := recordIn_of_record opened found
  rw [run_one later.general opened (revision_of_record found) visitor state]
  refine ⟨⟨?_, ?_⟩, fun there nowhere => later.breakdown read there nowhere visitor state,
    fun text told => later.visits sound read told visitor state⟩
  · rintro ⟨failure, stopped, corrupt⟩
    by_cases there : (log.chunk files record).toOption = none
    · exact .inl there
    · by_cases place : log.hasPlace record.base.toInt
      · cases told : log.laterText? files record with
        | none => exact .inr ⟨place, rfl⟩
        | some text =>
          have visited := later.visits sound read told visitor state
          rw [stopped] at visited
          cases visited
      · rw [later.breakdown read there place visitor state] at stopped
        cases stopped
        cases corrupt
  · intro guarded
    obtain ⟨failure, lost, corrupt⟩ := later.lost sound readable guarded
    exact ⟨failure, stop_one read lost visitor state, corrupt⟩

/-! ## A log whose index is replaced -/

/-- The header of a log with general deltas. -/
def general : Header := ⟨.ng, ⟨false, true⟩⟩

/-- Two texts in full. -/
def replaced : List Stored :=
  [.ofChunk 0 3 [0x75, 1, 1, 1], .ofChunk 1 3 [0x75, 2, 2, 2]]

/-- An empty patch on the revision behind it. -/
def replacing : List Stored := [.ofChunk 1 (-1) [], .ofChunk 1 3 [0x75, 2, 2, 2]]

/-- The log with the two texts. -/
def replacedLog : Log :=
  ⟨.ofIndex "a.i" {}, ⟨general, Index.entriesFrom false 0 0 replaced, .loaded⟩⟩

/-- The files with one index or the other, and the data file of the two texts. -/
def replacedDisk (revisions : List Stored) : Disk := fun path =>
  .ok (if path = "a.i" then Index.write general revisions else Index.writeData replaced)

theorem loaded_replaced : replacedLog.Loaded (replacedDisk replaced) :=
  loaded_of_written {} rfl (List.cons_ne_nil _ _) (by decide) (by decide) rfl

/-- The first text gives way to a patch on the revision behind it. Its content is rejected, but an
iteration hands over what the patch makes of that revision. -/
theorem later_parent_visited :
    replacedLog.Loaded (replacedDisk replaced) ∧
      replacedLog.record (replacedDisk replacing) 0 = .ok (replacing[0].record 0 0) ∧
      replacedLog.PatchOnLater (replacing[0].record 0 0) ∧
      replacedLog.content (replacedDisk replacing) 0 = .error (.deltaParent "a.i" 0 1 true) ∧
      replacedLog.iterate (replacedDisk replacing) 0 0 true
          (Visitor.gathering fun _ answer state => state ++ [answer]) [] =
        (.ok (), [.ok (.bytes [1, 1, 1])]) :=
  ⟨loaded_replaced, by cbv, ⟨rfl, by decide, .inr (by decide)⟩, by cbv, by cbv⟩

set_option maxRecDepth 4000 in
/-- What is handed over is the text of the revision behind, since the patch is empty. -/
theorem run_of_later_replaced :
    replacedLog.laterText? ⟨.whole (Index.write general replacing) 0,
        .ok (.whole (Index.writeData replaced) 0)⟩ (replacing[0].record 0 0) = some [1, 1, 1] ∧
      (replacedLog.run (replacedDisk replacing) 0 0 true
          (Visitor.gathering fun _ answer state => state ++ [answer]) []).visits =
        [⟨replacing[0].record 0 0, some (.ofBytes [1, 1, 1])⟩] := by
  have told : replacedLog.laterText? ⟨.whole (Index.write general replacing) 0,
      .ok (.whole (Index.writeData replaced) 0)⟩ (replacing[0].record 0 0) = some [1, 1, 1] := by
    cbv
  have found : replacedLog.record (replacedDisk replacing) 0 = .ok (replacing[0].record 0 0) := by
    cbv
  have opened : replacedLog.openFiles (replacedDisk replacing) =
      .ok ⟨.whole (Index.write general replacing) 0, .ok (.whole (Index.writeData replaced) 0)⟩ := rfl
  obtain ⟨-, run⟩ := run_of_later opened (fun _ => ⟨_, rfl⟩) found
    ⟨rfl, by decide, .inr (by decide)⟩
  exact ⟨told, (run _ []).2.2 _ told⟩

end RevisionLog.Log
