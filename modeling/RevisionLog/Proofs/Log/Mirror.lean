import Mathlib.Data.List.Forall2
import RevisionLog.Proofs.Accord
import RevisionLog.Proofs.Log.Loaded
import RevisionLog.Proofs.Log.Streaming
import RevisionLog.Proofs.Reader.Alike

/-!
# Logs that mirror each other

Two logs may hold the same revisions in files that look different: one is inline and the other is
not, or the files of one have grown. Open files `Log.Mirrors` others if from both the same records
and stored chunks can be had, apart from failures that are excused. Everything that is made of
records and chunks accords then: texts, by induction on the revision (`Log.accords_rebuild`), and
the visits of an iteration, by induction on its revisions (`Log.Mirrors.visitContents`). So whatever
is asked of the one log is answered by the other (`Log.Accords`, `Log.accords_of_mirrors`).
-/

namespace RevisionLog

open Outcome (accords_mapError)

/-- The visits are of the same record, with texts that are alike. -/
structure Visit.Alike (visit other : Visit) : Prop where
  record : visit.record = other.record
  text : Option.Rel Reader.Alike visit.text other.text

/-- The second iteration is as good as the first. -/
inductive Run.Accords {σ : Type} (excused : Failure → Prop) (run other : Run σ) : Prop
  | same (visits : List.Forall₂ Visit.Alike run.visits other.visits)
      (result : Outcome.Accords excused Eq run.result other.result)
      (state : run.state = other.state)
  | excused {failure : Failure} (failed : run.result = .error failure) (excuse : excused failure)

namespace Run

variable {σ : Type} {excused : Failure → Prop} {run other : Run σ}

theorem accords_stop {result result' : Except Failure Unit} (state : σ)
    (same : Outcome.Accords excused Eq result result') :
    Accords excused (stop result state) (stop result' state) :=
  .same .nil same rfl

theorem Accords.after {visit visit' : Visit} (accords : Accords excused run other)
    (alike : visit.Alike visit') : Accords excused (run.after visit) (other.after visit') := by
  cases accords with
  | same visits result state => exact .same (.cons alike visits) result state
  | excused failed excuse => exact .excused failed excuse

end Run

namespace Log

/-- Whatever is asked of the second log has an answer that is as good as that of the first. -/
structure Accords (excused : Failure → Prop) (log : Log) (disk : Disk) (log' : Log)
    (disk' : Disk) : Prop where
  count : log.count = log'.count
  record : ∀ number, Outcome.Accords excused Eq (log.record disk number) (log'.record disk' number)
  chunkLength : ∀ number,
    Outcome.Accords excused Eq (log.chunkLength disk number) (log'.chunkLength disk' number)
  textLength : ∀ number,
    Outcome.Accords excused Eq (log.textLength disk number) (log'.textLength disk' number)
  link : ∀ number, Outcome.Accords excused Eq (log.link disk number) (log'.link disk' number)
  parents : ∀ number,
    Outcome.Accords excused Eq (log.parents disk number) (log'.parents disk' number)
  node : ∀ number, Outcome.Accords excused Eq (log.node disk number) (log'.node disk' number)
  find : ∀ node, Outcome.Accords excused Eq (log.find disk node) (log'.find disk' node)
  content : ∀ number,
    Outcome.Accords excused Eq (log.content disk number) (log'.content disk' number)
  run : ∀ {σ : Type} (visitor : Visitor σ) (start stop : Revision) (withContent : Bool) (state : σ),
    Run.Accords excused (log.run disk start stop withContent visitor state)
      (log'.run disk' start stop withContent visitor state)

/-- What is read of the index at a distance from where the record of a revision starts. -/
def partIn {α : Type} (log : Log) (index : Buffer) (revision offset : Nat)
    (action : Buffer.Action α) (attempt : Attempt) : Except Failure α :=
  (index.readAt (log.recordPosition revision + offset) action).mapError
    (.file log.indexFile attempt)

/-- From the files of both logs the same is read of the revisions of some set. -/
structure Mirrors (excused : Failure → Prop) (within : Nat → Prop) (log : Log) (files : Files)
    (log' : Log) (files' : Files) : Prop where
  strict : log.strictCompression = log'.strictCompression
  general : log.isGeneralDelta = log'.isGeneralDelta
  below : ∀ ⦃n m⦄, within n → m < n → within m
  readFrom : ∀ ⦃n⦄, within n → log.readFrom n = log'.readFrom n
  record : ∀ ⦃n⦄, within n → Outcome.Accords excused Eq (log.recordIn files.index n)
    (log'.recordIn files'.index n)
  word : ∀ ⦃n⦄, within n → ∀ offset, offset = 8 ∨ offset = 12 → Outcome.Accords excused Eq
    (log.partIn files.index n offset Buffer.int32 (.readRecord n))
    (log'.partIn files'.index n offset Buffer.int32 (.readRecord n))
  node : ∀ ⦃n⦄, within n → Outcome.Accords excused Eq
    (log.partIn files.index n 32 (Buffer.read 20) (.readNode n))
    (log'.partIn files'.index n 32 (Buffer.read 20) (.readNode n))
  stored : ∀ ⦃n record⦄, within n → log.recordIn files.index n = .ok record →
    Outcome.Accords excused Buffer.Alike (log.storedChunk files record)
      (log'.storedChunk files' record)
  place : ∀ ⦃n record⦄, within n → log.recordIn files.index n = .ok record → ¬record.isLiteral →
    log.hasPlace (log.deltaParent record) = log'.hasPlace (log.deltaParent record) ∧
      (log.hasPlace (log.deltaParent record) → 0 ≤ log.deltaParent record →
        within (log.deltaParent record).toNat)
  stray : ∀ ⦃n record⦄, within n → log.recordIn files.index n = .ok record → ¬record.isLiteral →
    log.deltaParent record < 0 → excused (log.strayRecord files (log.deltaParent record))

variable {excused : Failure → Prop} {within : Nat → Prop} {log log' : Log} {files files' : Files}
  {n : Nat} {record : Record} {previous previous' : Option (Nat × Reader)}

/-- What is left of the previous revision is alike. -/
abbrev LeftAlike (previous previous' : Option (Nat × Reader)) : Prop :=
  Option.Rel (fun left left' => left.1 = left'.1 ∧ Reader.Alike left.2 left'.2) previous previous'

/-! ## Texts -/

/-- Chunks that are stored alike are read alike. -/
theorem accords_chunk (strict : log.strictCompression = log'.strictCompression)
    (stored : Outcome.Accords excused Buffer.Alike (log.storedChunk files record)
      (log'.storedChunk files' record)) :
    Outcome.Accords excused Reader.Alike (log.chunk files record) (log'.chunk files' record) := by
  refine stored.bind fun stored stored' _ _ alike => ?_
  rw [← alike.first?]
  split
  · exact .ok (.plain alike)
  · rw [← alike.slice]
    exact .ok (.inflating _)
  · rw [← alike.length]
    obtain ⟨inner, inner', window, window', alike⟩ | ⟨fault, window, window'⟩ :=
      alike.window 1 (stored.length - 1)
    · rw [window, window']
      exact .ok (.plain alike)
    · rw [window, window']
      exact .error rfl
  · exact .ok (.plain alike)
  · rw [← strict]
    split
    · exact .error rfl
    · exact .ok (.plain alike)

/-- Patches that are read alike make the same of bases that are alike. -/
theorem accords_patched (record : Record) {chunk chunk' base base' : Reader}
    (chunks : Reader.Alike chunk chunk') (bases : Reader.Alike base base') :
    Outcome.Accords excused Reader.Alike (log.patched record chunk base)
      (log'.patched record chunk' base') := by
  refine (accords_mapError (Patch.respects_read chunks).1 _ _ _).bind fun patch _ _ _ same => ?_
  subst same
  refine (accords_mapError (Patch.respects_apply _ patch bases).1 _ _ _).bind
    fun text _ _ _ same => ?_
  subst same
  exact .ok (Reader.alike_refl _)

theorem deltaParent_congr (general : log.isGeneralDelta = log'.isGeneralDelta) (record : Record) :
    log'.deltaParent record = log.deltaParent record := by
  rw [deltaParent, deltaParent, general]

/-- **Texts accord if their records and chunks do**, in a set of revisions that has the delta parent
of each. By induction on the revision. -/
theorem accords_rebuild (within : Nat → Prop) (general : log.isGeneralDelta = log'.isGeneralDelta)
    (parents : ∀ ⦃n record⦄, within n → log.recordIn files.index n = .ok record →
      ¬record.isLiteral → 0 ≤ log.deltaParent record ∧ log.deltaParent record < n →
        within (log.deltaParent record).toNat)
    (records : ∀ ⦃n⦄, within n → Outcome.Accords excused Eq (log.recordIn files.index n)
      (log'.recordIn files'.index n))
    (chunks : ∀ ⦃n record⦄, within n → log.recordIn files.index n = .ok record →
      Outcome.Accords excused Reader.Alike (log.chunk files record) (log'.chunk files' record))
    (known : within n) :
    Outcome.Accords excused Reader.Alike (log.rebuild files n) (log'.rebuild files' n) := by
  induction n using Nat.strongRecOn with
  | ind n ih =>
    have same := records known
    cases found : log.recordIn files.index n with
    | error failure =>
      rw [found] at same
      rw [rebuild_of_error found]
      generalize found' : log'.recordIn files'.index n = outcome at same
      cases same with
      | error same =>
        rw [rebuild_of_error found']
        exact .error same
      | excused excuse => exact .excused excuse
    | ok record =>
      have found' := same.eq_ok found
      by_cases literal : record.isLiteral
      · rw [rebuild_of_literal found literal, rebuild_of_literal found' literal]
        exact chunks known found
      · have parent := deltaParent_congr general record
        by_cases earlier : 0 ≤ log.deltaParent record ∧ log.deltaParent record < n
        · rw [rebuild_of_patch found literal earlier,
            rebuild_of_patch found' literal (by rwa [parent]), parent]
          refine (ih _ (by omega) (parents known found literal earlier)).bind
            fun base base' _ _ bases => ?_
          exact (chunks known found).bind fun chunk chunk' _ _ alike =>
            accords_patched record alike bases
        · rw [rebuild_of_later found literal earlier,
            rebuild_of_later found' literal (by rwa [parent]), parent]
          exact .error rfl

namespace Mirrors

theorem chunk (mirrors : Mirrors excused within log files log' files') (known : within n)
    (found : log.recordIn files.index n = .ok record) :
    Outcome.Accords excused Reader.Alike (log.chunk files record) (log'.chunk files' record) :=
  accords_chunk mirrors.strict (mirrors.stored known found)

/-- **The texts of the revisions accord.** -/
theorem rebuild (mirrors : Mirrors excused within log files log' files') (known : within n) :
    Outcome.Accords excused Reader.Alike (log.rebuild files n) (log'.rebuild files' n) :=
  accords_rebuild within mirrors.general
    (fun _ _ inside _ _ earlier => mirrors.below inside (by omega))
    (fun _ inside => mirrors.record inside) (fun _ _ inside found => mirrors.chunk inside found)
    known

theorem parentText (mirrors : Mirrors excused within log files log' files') (known : within n)
    (found : log.recordIn files.index n = .ok record) (patch : ¬record.isLiteral) :
    Outcome.Accords excused Reader.Alike
      (log.parentText files record (log.deltaParent record))
      (log'.parentText files' record (log.deltaParent record)) := by
  obtain ⟨same, inside⟩ := mirrors.place known found patch
  rw [Log.parentText, Log.parentText, ← same]
  split
  · rename_i place
    split
    · rename_i negative
      exact .excused (mirrors.stray known found patch negative)
    · rename_i nonneg
      exact mirrors.rebuild (inside place (by omega))
  · exact .error rfl

theorem baseAfter (mirrors : Mirrors excused within log files log' files') (known : within n)
    (found : log.recordIn files.index n = .ok record) (patch : ¬record.isLiteral)
    (left : LeftAlike previous previous') :
    Outcome.Accords excused Reader.Alike (log.baseAfter files record previous)
      (log'.baseAfter files' record previous') := by
  have parentText := mirrors.parentText known found patch
  cases left with
  | none =>
    rw [Log.baseAfter, Log.baseAfter, deltaParent_congr mirrors.general]
    exact parentText
  | @some handed handed' alike =>
    obtain ⟨number, text⟩ := handed
    obtain ⟨number', text'⟩ := handed'
    obtain ⟨same, alike⟩ := alike
    obtain rfl : number = number' := same
    rw [Log.baseAfter, Log.baseAfter, deltaParent_congr mirrors.general]
    split
    · exact .ok alike
    · exact parentText

theorem contentAfter (mirrors : Mirrors excused within log files log' files') (known : within n)
    (found : log.recordIn files.index n = .ok record) (left : LeftAlike previous previous') :
    Outcome.Accords excused Reader.Alike (log.contentAfter files record previous)
      (log'.contentAfter files' record previous') := by
  refine (mirrors.chunk known found).bind fun chunk chunk' _ _ chunks => ?_
  split
  · exact .ok chunks
  · rename_i patch
    exact (mirrors.baseAfter known found patch left).bind fun base base' _ _ bases =>
      accords_patched record chunks bases

theorem readAfter (mirrors : Mirrors excused within log files log' files') (known : within n)
    (left : LeftAlike previous previous') :
    Outcome.Accords excused (fun told told' => told.1 = told'.1 ∧ Reader.Alike told.2 told'.2)
      (log.readAfter files n previous) (log'.readAfter files' n previous') := by
  refine (mirrors.record known).bind fun record record' found _ same => ?_
  subst same
  exact (mirrors.contentAfter known found left).bind fun text text' _ _ alike =>
    .ok ⟨rfl, alike⟩

/-! ## Iterations -/

section Visits

variable {σ : Type} {visitor : Visitor σ} {revisions : List Nat} {state : σ}

theorem visitRecords (mirrors : Mirrors excused within log files log' files')
    (known : ∀ n ∈ revisions, within n) :
    Run.Accords excused (log.visitRecords files visitor revisions state)
      (log'.visitRecords files' visitor revisions state) := by
  induction revisions generalizing state with
  | nil => exact Run.accords_stop state (.ok rfl)
  | cons revision revisions ih =>
    have records := mirrors.record (known revision List.mem_cons_self)
    have later := fun other among => known other (List.mem_cons_of_mem _ among)
    rw [Log.visitRecords, Log.visitRecords]
    generalize log.recordIn files.index revision = outcome at records ⊢
    generalize log'.recordIn files'.index revision = outcome' at records ⊢
    cases records with
    | error same => exact Run.accords_stop state (.error same)
    | excused excuse => exact .excused rfl excuse
    | @ok record _ same =>
      subst same
      refine Run.Accords.after ?_ ⟨rfl, .none⟩
      rcases visitor.record record state with ⟨_ | _, state⟩
      · exact Run.accords_stop state (.error rfl)
      · exact ih later

/-- **The visits of an iteration accord.** By induction on the revisions; what is left of the
previous one stays alike, because the visitor is given texts that it cannot tell apart. -/
theorem visitContents (mirrors : Mirrors excused within log files log' files') {first : Nat}
    (known : ∀ n ∈ revisions, within n) (left : LeftAlike previous previous') :
    Run.Accords excused (log.visitContents files visitor first revisions previous state)
      (log'.visitContents files' visitor first revisions previous' state) := by
  induction revisions generalizing previous previous' state with
  | nil => exact Run.accords_stop state (.ok rfl)
  | cons revision revisions ih =>
    have told := mirrors.readAfter (known revision List.mem_cons_self) left
    have later := fun other among => known other (List.mem_cons_of_mem _ among)
    rw [Log.visitContents, Log.visitContents]
    generalize log.readAfter files revision previous = outcome at told ⊢
    generalize log'.readAfter files' revision previous' = outcome' at told ⊢
    cases told with
    | error same => exact Run.accords_stop state (.error same)
    | excused excuse => exact .excused rfl excuse
    | @ok read read' same =>
      obtain ⟨record, text⟩ := read
      obtain ⟨record', text'⟩ := read'
      obtain ⟨same, alike⟩ := same
      obtain rfl : record = record' := same
      dsimp only
      split
      · exact ih later (.some ⟨rfl, alike⟩)
      · obtain ⟨same, rewound⟩ := Reader.respects_seek 0 alike
        rw [Reader.reset]
        generalize Reader.seek 0 text = run at same rewound ⊢
        generalize Reader.seek 0 text' = run' at same rewound ⊢
        obtain ⟨result, moved⟩ := run
        obtain ⟨result', moved'⟩ := run'
        obtain rfl : result = result' := same
        cases result with
        | error fault => exact Run.accords_stop state (.error rfl)
        | ok =>
          refine Run.Accords.after ?_ ⟨rfl, .some rewound⟩
          obtain ⟨same, handed⟩ := (visitor.content record state).run_alike rewound
          generalize (visitor.content record state).run moved = visit at same handed ⊢
          generalize (visitor.content record state).run moved' = visit' at same handed ⊢
          obtain ⟨⟨verdict, state⟩, passed⟩ := visit
          obtain ⟨_, passed'⟩ := visit'
          obtain rfl := same
          cases verdict with
          | error reason => exact Run.accords_stop state (.error rfl)
          | ok => exact ih later (.some ⟨rfl, handed⟩)

end Visits

/-! ## Questions -/

theorem findIn (mirrors : Mirrors excused within log files log' files') (node : NodeId)
    {revisions : List Nat} (known : ∀ n ∈ revisions, within n) :
    Outcome.Accords excused Eq (log.findIn files.index node revisions)
      (log'.findIn files'.index node revisions) := by
  induction revisions with
  | nil => exact .ok rfl
  | cons revision revisions ih =>
    refine (mirrors.node (known revision List.mem_cons_self)).bind fun bytes _ _ _ same => ?_
    subst same
    split
    · exact .ok rfl
    · exact ih fun other among => known other (List.mem_cons_of_mem _ among)

end Mirrors

theorem check_congr (count : log.count = log'.count) (number : Revision) :
    log.check number = log'.check number := by
  rw [check, check, count]

theorem checkRange_congr (count : log.count = log'.count) (start stop : Revision) :
    log.checkRange start stop = log'.checkRange start stop := by
  rw [checkRange, checkRange, count]

theorem openIndex_eq_map (log : Log) (disk : Disk) :
    log.openIndex disk = (log.openFiles disk).map Files.index := by
  rw [openFiles]
  cases log.openIndex disk <;> rfl

section Questions

variable {disk disk' : Disk} (count : log.count = log'.count) (known : ∀ n < log.count, within n)
  (opened : Outcome.Accords excused
    (fun files files' => Mirrors excused within log files log' files')
    (log.openFiles disk) (log'.openFiles disk'))

include count known in
theorem accords_check (number : Revision) : Outcome.Accords excused (fun n n' => n = n' ∧ within n)
    (log.check number) (log'.check number) := by
  rw [← check_congr count number]
  cases checked : log.check number with
  | error failure => exact .error rfl
  | ok n => exact .ok ⟨rfl, known n (resolve_of_check checked).2⟩

include opened in
theorem accords_openIndex : Outcome.Accords excused
    (fun index index' => ∃ data data',
      Mirrors excused within log ⟨index, data⟩ log' ⟨index', data'⟩)
    (log.openIndex disk) (log'.openIndex disk') := by
  rw [openIndex_eq_map, openIndex_eq_map]
  exact opened.map fun files files' mirrors => ⟨files.data, files'.data, mirrors⟩

include count known opened in
/-- A question about a revision that is answered from the index. -/
theorem accords_of_index {α : Type} (number : Revision)
    {question question' : Nat → Buffer → Except Failure α}
    (same : ∀ ⦃files files' n⦄, Mirrors excused within log files log' files' → within n →
      Outcome.Accords excused Eq (question n files.index) (question' n files'.index)) :
    Outcome.Accords excused Eq (log.check number >>= fun n => log.openIndex disk >>= question n)
      (log'.check number >>= fun n => log'.openIndex disk' >>= question' n) := by
  refine (accords_check count known number).bind fun n _ _ _ both => ?_
  obtain ⟨rfl, inside⟩ := both
  refine (accords_openIndex opened).bind fun index index' _ _ mirrors => ?_
  obtain ⟨data, data', mirrors⟩ := mirrors
  exact same mirrors inside

include count known opened in
/-- An iteration reads and visits revisions of the log only. -/
theorem accords_run {σ : Type} (visitor : Visitor σ) (start stop : Revision) (withContent : Bool)
    (state : σ) : Run.Accords excused (log.run disk start stop withContent visitor state)
      (log'.run disk' start stop withContent visitor state) := by
  have told : Outcome.Accords excused
      (fun (told told' : (Nat × Nat) × Files) => told.1 = told'.1 ∧
        (told.1.1 ≤ told.1.2 ∧ told.1.2 < log.count) ∧
        Mirrors excused within log told.2 log' told'.2)
      (do let range ← log.checkRange start stop
          return (range, ← log.openFiles disk))
      (do let range ← log'.checkRange start stop
          return (range, ← log'.openFiles disk')) := by
    rw [← checkRange_congr count]
    cases range : log.checkRange start stop with
    | error failure => exact .error rfl
    | ok range' =>
      exact opened.bind fun files files' _ _ mirrors =>
        .ok ⟨rfl, checkRange_eq_ok range, mirrors⟩
  rw [run, run, ← count]
  split
  · exact Run.accords_stop state (.ok rfl)
  · generalize (do let range ← log.checkRange start stop
                   return (range, ← log.openFiles disk)) = outcome at told ⊢
    generalize (do let range ← log'.checkRange start stop
                   return (range, ← log'.openFiles disk')) = outcome' at told ⊢
    cases told with
    | error same => exact Run.accords_stop state (.error same)
    | excused excuse => exact .excused rfl excuse
    | @ok read read' same =>
      obtain ⟨⟨first, last⟩, files⟩ := read
      obtain ⟨range, files'⟩ := read'
      obtain ⟨same, ⟨le, inside⟩, mirrors⟩ := same
      obtain rfl := same
      dsimp only at le inside ⊢
      have reached : ∀ base, ∀ n ∈ List.range' base (last + 1 - base), within n := by
        intro base n among
        rw [List.mem_range'_1] at among
        exact known n (by omega)
      split
      · rw [← mirrors.readFrom (known first (Nat.lt_of_le_of_lt le inside))]
        exact mirrors.visitContents (reached _) .none
      · exact mirrors.visitRecords (reached _)

variable (within) in
include count known opened in
/-- **A log with files that mirror those of another answers every question as well.** -/
theorem accords_of_mirrors : Accords excused log disk log' disk' := by
  have record : ∀ number,
      Outcome.Accords excused Eq (log.record disk number) (log'.record disk' number) :=
    fun number => accords_of_index count known opened number
      fun _ _ _ mirrors inside => mirrors.record inside
  have field : ∀ offset, offset = 8 ∨ offset = 12 → ∀ number,
      Outcome.Accords excused Eq (log.field disk number offset) (log'.field disk' number offset) :=
    fun offset among number => accords_of_index count known opened number
      fun _ _ _ mirrors inside => mirrors.word inside offset among
  -- What is taken from a record is the same if the record is.
  have part : ∀ {α : Type} (number : Revision) (f : Record → α), Outcome.Accords excused Eq
      (log.record disk number >>= fun record => .ok (f record))
      (log'.record disk' number >>= fun record => .ok (f record)) :=
    fun number f => (record number).bind fun _ _ _ _ same => .ok (congrArg f same)
  refine ⟨count, record, field 8 (.inl rfl), field 12 (.inr rfl), fun number => part number _,
    fun number => part number _, fun number => part number _, fun node => ?_, fun number => ?_,
    fun visitor start stop withContent state => ?_⟩
  · rw [find, find, searched, searched, count]
    split
    · exact .ok rfl
    · refine (accords_openIndex opened).bind fun index index' _ _ mirrors => ?_
      obtain ⟨data, data', mirrors⟩ := mirrors
      refine mirrors.findIn node fun n among => known n (lt_of_mem_searched ?_)
      rwa [searched, count]
  · refine (accords_check count known number).bind fun n _ _ _ both => ?_
    obtain ⟨rfl, inside⟩ := both
    refine opened.bind fun files files' _ _ mirrors => ?_
    refine (mirrors.rebuild inside).bind fun text text' _ _ alike => ?_
    exact accords_mapError (Reader.respects_rest alike).1 _ _ _
  · exact accords_run count known opened visitor start stop withContent state

end Questions

end Log

end RevisionLog
