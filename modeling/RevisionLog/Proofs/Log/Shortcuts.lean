import RevisionLog.Proofs.Log.Visits

/-!
# Shortcuts

Single fields of a record can be asked for without decoding it, and an iteration reads the records
of a range on its own. What they tell of a revision is what its record says (`Log.agrees`), and an
iteration that comes to its end has visited the records of the range (`Log.records_of_run`). A
question depends only on the revision that its number means, so `Revision.tip` and the number of the
last revision are answered alike (`Log.sameAnswers_of_resolve`), and a record is refused only if its
number means none (`Log.check_of_refused`), which all questions refuse.
-/

namespace RevisionLog.Log

open Outcome (FailsBy failsBy_ok)
open Run (Orderly)

variable {log : Log} {before disk : Disk} {number other : Revision} {revision : Nat}
  {record : Record} {σ : Type}

/-- Whatever tells of a revision agrees with its record. -/
structure Agrees (log : Log) (disk : Disk) (number : Revision) (record : Record) : Prop where
  chunkLength : log.chunkLength disk number = .ok record.chunkLength
  textLength : log.textLength disk number = .ok record.textLength
  link : log.link disk number = .ok record.link
  parents : log.parents disk number = .ok (record.parent1, record.parent2)
  node : log.node disk number = .ok record.node
  /-- An iteration that visits the revision visits it with the record. -/
  visit : ∀ {σ : Type} (start stop : Revision) (visitor : Visitor σ) (state : σ),
    ∀ visit ∈ (log.run disk start stop false visitor state).visits,
      visit.record.revision = record.revision → visit = ⟨record, none⟩
  /-- An iteration that has visited what its range has before the revision, and was not given up
  there, visits the revision. -/
  reached : ∀ {σ : Type} (start stop : Revision) (visitor : Visitor σ) (state : σ),
    log.HasRange start stop → ∀ before behind,
      log.range start stop = before ++ record.revision :: behind →
      before <+: (log.run disk start stop false visitor state).revisions →
      (∀ n ∈ before, ∀ reason,
        (log.run disk start stop false visitor state).result ≠ .error (.visitor n reason)) →
      ⟨record, none⟩ ∈ (log.run disk start stop false visitor state).visits

/-- Two numbers mean the same to every question. -/
structure SameAnswers (log : Log) (disk : Disk) (number other : Revision) : Prop where
  record : log.record disk number = log.record disk other
  chunkLength : log.chunkLength disk number = log.chunkLength disk other
  textLength : log.textLength disk number = log.textLength disk other
  link : log.link disk number = log.link disk other
  parents : log.parents disk number = log.parents disk other
  node : log.node disk number = log.node disk other
  content : log.content disk number = log.content disk other
  start : ∀ {σ : Type} (stop : Revision) (withContent : Bool) (visitor : Visitor σ) (state : σ),
    log.run disk number stop withContent visitor state =
      log.run disk other stop withContent visitor state
  stop : ∀ {σ : Type} (start : Revision) (withContent : Bool) (visitor : Visitor σ) (state : σ),
    log.run disk start number withContent visitor state =
      log.run disk start other withContent visitor state

/-! ## Visits -/

theorem opens_ofReading (log : Log) (disk : Disk) :
    FailsBy Failure.OfReading (log.openFiles disk) :=
  FailsBy.bind (fun _ failed => ofReading_of_mapError failed) fun _ _ => failsBy_ok _

/-- An iteration over a range that the log has is orderly, whatever the files hold. -/
theorem orderly_of_hasRange (remembered : log.Remembered) (disk : Disk) {start stop : Revision}
    (has : log.HasRange start stop) (withContent : Bool) (visitor : Visitor σ) (state : σ) :
    Orderly Failure.OfReading (log.Tells disk withContent) visitor (log.range start stop) state
      (log.run disk start stop withContent visitor state) :=
  orderly_run remembered has (opens_ofReading log disk) (fun _ => covers_of_openFiles)
    (fun _ _ broken => broken.ofReading) visitor state

/-- Every visit is with the record of its revision. -/
theorem tells_of_visit (remembered : log.Remembered) (start stop : Revision) (withContent : Bool)
    (visitor : Visitor σ) (state : σ) :
    ∀ visit ∈ (log.run disk start stop withContent visitor state).visits,
      log.Tells disk withContent visit := by
  by_cases none : log.count = 0
  · rw [run_of_no_revisions none]
    exact fun _ among => absurd among List.not_mem_nil
  · by_cases has : log.HasRange start stop
    · exact (orderly_of_hasRange remembered disk has withContent visitor state).tells_of_mem
    · obtain ⟨invalid, stops⟩ := run_of_not_hasRange none has
      rw [stops]
      exact fun _ among => absurd among List.not_mem_nil

/-- A loaded log has revisions, as an index without any is not loaded. -/
theorem Loaded.count_pos (loaded : log.Loaded before) : 0 < log.count := by
  obtain ⟨index, -, -, stand⟩ := loaded.index
  rw [count, Outline.count]
  generalize log.outline.entries = entries at stand
  cases stand with
  | last => exact Nat.succ_pos _
  | more => exact Nat.succ_pos _

/-- **An iteration without texts that comes to its end has visited the records of its range.** -/
theorem records_of_run (loaded : log.Loaded before) {start stop : Revision} {visitor : Visitor σ}
    {state : σ} (ended : (log.run disk start stop false visitor state).result = .ok ()) :
    log.HasRange start stop ∧
      ((log.run disk start stop false visitor state).visits.map fun visit => .ok visit.record) =
        (log.range start stop).map fun revision => log.record disk (Int32.ofNat revision) := by
  have some : log.count ≠ 0 := Nat.ne_of_gt loaded.count_pos
  by_cases has : log.HasRange start stop
  · have orderly := orderly_of_hasRange loaded.remembered disk has false visitor state
    rw [← orderly.complete ended, Run.revisions, List.map_map]
    exact ⟨has, List.map_congr_left fun visit among => (orderly.tells_of_mem visit among).1.symm⟩
  · obtain ⟨invalid, stops⟩ := run_of_not_hasRange some has
    rw [stops] at ended
    cases ended

/-- By induction on the revisions before the one whose record can be had. -/
theorem mem_visitRecords {files : Files} {visitor : Visitor σ} {before behind : List Nat}
    {state : σ} (found : log.recordIn files.index revision = .ok record)
    (visited : before <+:
      (log.visitRecords files visitor (before ++ revision :: behind) state).revisions)
    (onward : ∀ n ∈ before, ∀ reason,
      (log.visitRecords files visitor (before ++ revision :: behind) state).result ≠
        .error (.visitor n reason)) :
    ⟨record, none⟩ ∈
      (log.visitRecords files visitor (before ++ revision :: behind) state).visits := by
  induction before generalizing state with
  | nil =>
    rw [List.nil_append, visitRecords, found]
    exact List.mem_cons_self
  | cons n before ih =>
    rw [List.cons_append, visitRecords] at visited onward ⊢
    cases there : log.recordIn files.index n with
    | error failure =>
      rw [there] at visited
      cases List.prefix_nil.1 visited
    | ok earlier =>
      rw [there] at visited onward
      dsimp only at visited onward ⊢
      rw [Run.revisions_after, List.cons_prefix_cons] at visited
      cases answer : visitor.record earlier state with
      | mk verdict after =>
        rw [answer] at visited onward
        cases verdict with
        | error reason => exact absurd rfl (onward n List.mem_cons_self reason)
        | ok =>
          exact List.mem_cons_of_mem _
            (ih visited.2 fun m among => onward m (List.mem_cons_of_mem _ among))

theorem run_of_hasRange {files : Files} {start stop : Revision} {visitor : Visitor σ} {state : σ}
    (has : log.HasRange start stop) (opened : log.openFiles disk = .ok files) :
    log.run disk start stop false visitor state =
      log.visitRecords files visitor (log.range start stop) state := by
  have checked := checkRange_of_hasRange has
  have inside := (checkRange_eq_ok checked).2
  rw [run, if_neg (by omega), checked, opened]
  rfl

/-! ## Records -/

theorem record_eq_of_check (checked : log.check number = log.check other) :
    log.record disk number = log.record disk other := by
  rw [Log.record, Log.record, checked]

/-- Where a record can be had, the files can be opened. -/
theorem files_of_record (found : log.record disk number = .ok record) : ∃ files,
    log.openFiles disk = .ok files ∧ log.recordIn files.index record.revision = .ok record := by
  have checked := revision_of_record found
  obtain ⟨_, -, rest⟩ := Outcome.bind_eq_ok.1 found
  obtain ⟨index, opened, -⟩ := Outcome.bind_eq_ok.1 rest
  rw [record_eq opened checked] at found
  exact ⟨_, openFiles_of_openIndex opened, found⟩

/-- **What tells of a revision agrees with its record.** -/
theorem agrees (loaded : log.Loaded before) (found : log.record disk number = .ok record) :
    log.Agrees disk number record := by
  have checked := revision_of_record found
  have known := (resolve_of_check checked).2
  refine ⟨chunkLength_of_record found, textLength_of_record found, ?_, ?_, ?_, ?_, ?_⟩
  · rw [Log.link, found]
    rfl
  · rw [Log.parents, found]
    rfl
  · rw [Log.node, found]
    rfl
  · intro σ start stop visitor state visit among same
    obtain ⟨visited, text⟩ := visit
    obtain ⟨told, without⟩ :=
      tells_of_visit loaded.remembered start stop false visitor state _ among
    rw [same, record_eq_of_check ((loaded.check known).trans checked.symm), found] at told
    have silent : text = none := Option.isNone_iff_eq_none.1 (Option.isSome_eq_false_iff.1 without)
    rw [Except.ok.inj told, silent]
  · intro σ start stop visitor state has before behind split visited onward
    obtain ⟨files, opened, there⟩ := files_of_record found
    rw [run_of_hasRange has opened, split] at visited onward ⊢
    exact mem_visitRecords there visited onward

/-- A record is refused only if the log does not have the revision. -/
theorem check_of_refused {invalid : InvalidRevision}
    (refused : log.record disk number = .error (.invalidRevision invalid)) :
    log.check number = .error (.invalidRevision invalid) := by
  cases checked : log.check number with
  | error failure =>
    have same := (replies_of_refused checked).record.symm.trans refused
    rw [Except.error.inj same]
  | ok revision =>
    have reads : FailsBy Failure.OfReading
        (log.openIndex disk >>= fun index => log.recordIn index revision) :=
      FailsBy.bind (fun _ failed => ofReading_of_mapError failed)
        fun _ _ _ failed => ofReading_of_mapError failed
    rw [Log.record, checked] at refused
    exact (reads refused).elim

/-- Numbers that mean the same revision are answered alike. -/
theorem sameAnswers_of_resolve (same : number.resolve log.count = other.resolve log.count)
    (has : log.HasRevision number) : log.SameAnswers disk number other := by
  have has' : log.HasRevision other := by rwa [HasRevision, ← same]
  have checked : log.check number = log.check other := by rw [has.check, has'.check, same]
  have record : log.record disk number = log.record disk other := record_eq_of_check checked
  have field : ∀ offset, log.field disk number offset = log.field disk other offset := by
    intro offset
    rw [field, field, checked]
  refine ⟨record, field 8, field 12, ?_, ?_, ?_, ?_, ?_, ?_⟩
  · rw [Log.link, Log.link, record]
  · rw [Log.parents, Log.parents, record]
  · rw [Log.node, Log.node, record]
  · rw [Log.content, Log.content, checked]
  · intro σ stop withContent visitor state
    rw [run, run, checkRange, checkRange, same]
  · intro σ start withContent visitor state
    rw [run, run, checkRange, checkRange, same]

/-- `Revision.tip` means the last revision. -/
theorem sameAnswers_tip (loaded : log.Loaded before) (disk : Disk) :
    log.SameAnswers disk .tip (Int32.ofNat (log.count - 1)) := by
  have some := loaded.count_pos
  have last := (resolve_of_check (loaded.check (Nat.sub_lt some Nat.one_pos))).1
  have tip : Revision.tip.resolve log.count = (log.count - 1 : Nat) := by
    rw [Revision.resolve, if_pos rfl]
    omega
  refine sameAnswers_of_resolve (tip.trans last.symm) ⟨?_, ?_⟩
  · omega
  · omega

/-- **Shortcuts agree with decoding.** Let a log be loaded, and let its files hold anything by now.
Where the record of a revision can be had, all that tells of the revision agrees with it. The last
revision may be called `Revision.tip`. Where a record is refused, so is everything else, for the
same reason. And an iteration without texts that comes to its end has visited the records of its
range. -/
theorem shortcuts_agree (loaded : log.Loaded before) (disk : Disk) :
    (∀ number record, log.record disk number = .ok record → log.Agrees disk number record) ∧
      log.SameAnswers disk .tip (Int32.ofNat (log.count - 1)) ∧
      (∀ number invalid, log.record disk number = .error (.invalidRevision invalid) →
        log.Replies (fun outcome => outcome = .error (.invalidRevision invalid)) disk number) ∧
      (∀ {σ : Type} (start stop : Revision) (visitor : Visitor σ) (state : σ),
        let run := log.run disk start stop false visitor state
        run.result = .ok () → log.HasRange start stop ∧
          (run.visits.map fun visit => .ok visit.record) =
            (log.range start stop).map fun revision => log.record disk (Int32.ofNat revision)) := by
  refine ⟨fun _ _ => agrees loaded, sameAnswers_tip loaded disk, fun number invalid refused => ?_,
    fun _ _ _ _ => records_of_run loaded⟩
  exact replies_of_refused (check_of_refused refused)

/-- The visitor that does nothing. -/
def idle : Visitor Unit := ⟨fun _ state => (.ok (), state), fun _ state => .done (.ok (), state)⟩

theorem run_idle : (pairLog.run pairDisk 0 .tip false idle ()).result = .ok () := by cbv

theorem record_tip : (pairLog.record pairDisk .tip).toOption.map Record.textLength = some 4 := by
  cbv

/-- The last revision of the pair, one that the pair does not have, and an iteration over both. -/
theorem shortcuts_agree_pair : ∃ record invalid,
    pairLog.record pairDisk .tip = .ok record ∧ record.textLength = 4 ∧
      pairLog.Agrees pairDisk .tip record ∧ pairLog.SameAnswers pairDisk .tip 1 ∧
      pairLog.record pairDisk 2 = .error (.invalidRevision invalid) ∧
      pairLog.chunkLength pairDisk 2 = .error (.invalidRevision invalid) ∧
      (pairLog.run pairDisk 0 .tip false idle ()).visits.map (fun visit => .ok visit.record) =
        [pairLog.record pairDisk 0, pairLog.record pairDisk 1] := by
  obtain ⟨agree, tip, refused, visited⟩ := shortcuts_agree loaded_pair pairDisk
  obtain ⟨record, told, length⟩ := Option.map_eq_some_iff.1 record_tip
  have there := Outcome.toOption_eq_some.1 told
  have not : ¬pairLog.HasRevision 2 := fun has => absurd has.2 (by decide)
  have absent : pairLog.record pairDisk 2 = _ :=
    (replies_of_refused (check_of_not_hasRevision not)).record
  exact ⟨record, _, there, length, agree .tip record there, tip, absent,
    (refused 2 _ absent).chunkLength, (visited 0 .tip idle () run_idle).2⟩

end RevisionLog.Log
