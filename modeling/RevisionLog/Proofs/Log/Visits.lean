import Mathlib
import RevisionLog.Proofs.Log.Opening
import RevisionLog.Proofs.Log.Stored
import RevisionLog.Proofs.Log.Streaming

/-!
# What an iteration tells its visitor

An iteration over some revisions tells its visitor of them in order, until it comes to their end, or
fails by itself, or the visitor gives up. `Run.Orderly` says so, one visit after another. Both ways
to iterate are orderly, by induction on the revisions that are read (`Log.orderly_visitRecords`,
`Log.orderly_visitContents`), and what is read before the first visit leaves no trace. What can be
said of an orderly iteration as a whole follows by induction on its visits (`Run.Protocol`), and so
every iteration keeps to the protocol (`Log.run_protocol`).
-/

namespace RevisionLog

open Outcome (FailsBy failsBy_ok failsBy_error)

namespace Visitor

variable {σ : Type}

/-- What the visitor answers to a call, and its state after it. -/
def answer (visitor : Visitor σ) (visit : Visit) (state : σ) : Except String Unit × σ :=
  match visit.text with
  | none => visitor.record visit.record state
  | some text => ((visitor.content visit.record state).run text).1

/-- Some visits in turn, each with the answer to it. -/
def answers (visitor : Visitor σ) : List Visit → σ → List (Visit × Except String Unit)
  | [], _ => []
  | visit :: visits, state =>
    (visit, (visitor.answer visit state).1) :: visitor.answers visits (visitor.answer visit state).2

/-- The state of the visitor after some visits. -/
def after (visitor : Visitor σ) (visits : List Visit) (state : σ) : σ :=
  visits.foldl (fun state visit => (visitor.answer visit state).2) state

end Visitor

namespace Run

variable {σ : Type}

/-- The iteration tells a visitor of some revisions in order. It comes to the end of them, or fails
for a reason of some kind before one of them, or the visitor gives up. -/
inductive Orderly (kind : Failure → Prop) (told : Visit → Prop) (visitor : Visitor σ) :
    List Nat → σ → Run σ → Prop
  | done (state : σ) : Orderly kind told visitor [] state (.stop (.ok ()) state)
  | failed {failure : Failure} (fails : kind failure) (revisions : List Nat) (state : σ) :
      Orderly kind told visitor revisions state (.stop (.error failure) state)
  | gaveUp (visit : Visit) {reason : String} {state after : σ} (tells : told visit)
      (answer : visitor.answer visit state = (.error reason, after)) (revisions : List Nat) :
      Orderly kind told visitor (visit.record.revision :: revisions) state
        (.after visit (.stop (.error (.visitor visit.record.revision reason)) after))
  | onward (visit : Visit) {revisions : List Nat} {state after : σ} {run : Run σ}
      (tells : told visit) (answer : visitor.answer visit state = (.ok (), after))
      (rest : Orderly kind told visitor revisions after run) :
      Orderly kind told visitor (visit.record.revision :: revisions) state (.after visit run)

/-- The revisions that were visited, in order. -/
def revisions (run : Run σ) : List Nat := run.visits.map (·.record.revision)

@[simp] theorem revisions_stop (result : Except Failure Unit) (state : σ) :
    (stop result state).revisions = [] := rfl

@[simp] theorem revisions_after (visit : Visit) (run : Run σ) :
    (after visit run).revisions = visit.record.revision :: run.revisions := rfl

/-- The iteration keeps to the protocol for a visitor that is to be told of some revisions. -/
structure Protocol (run : Run σ) (told : Visit → Prop) (visitor : Visitor σ) (revisions : List Nat)
    (state : σ) : Prop where
  /-- The revisions are visited in order and none is left out on the way. -/
  order : run.revisions <+: revisions
  told : ∀ visit ∈ run.visits, told visit
  complete : run.result = .ok () → run.revisions = revisions
  /-- The iteration fails in the name of the visitor exactly if the visitor does. -/
  gaveUp : ∀ revision reason, run.result = .error (.visitor revision reason) ↔
    ∃ visit, visit.record.revision = revision ∧
      (visit, .error reason) ∈ visitor.answers run.visits state
  last : ∀ revision reason, run.result = .error (.visitor revision reason) →
    run.revisions.getLast? = some revision
  /-- Otherwise no call to the visitor fails. -/
  answered : (∀ revision reason, run.result ≠ .error (.visitor revision reason)) →
    ∀ call ∈ visitor.answers run.visits state, call.2 = .ok ()
  state : run.state = visitor.after run.visits state

/-! ## The visits of an orderly iteration -/

section Orderly

variable {kind : Failure → Prop} {told : Visit → Prop} {visitor : Visitor σ} {revisions : List Nat}
  {state : σ} {run : Run σ}

theorem Orderly.order (orderly : Orderly kind told visitor revisions state run) :
    run.revisions <+: revisions := by
  induction orderly with
  | done | failed => simp
  | gaveUp => simp [List.cons_prefix_cons]
  | onward _ _ _ _ ih => simpa [List.cons_prefix_cons] using ih

theorem Orderly.tells_of_mem (orderly : Orderly kind told visitor revisions state run) :
    ∀ visit ∈ run.visits, told visit := by
  induction orderly with
  | done | failed => simp [stop]
  | gaveUp _ tells => simpa [after, stop] using tells
  | onward _ tells _ _ ih => simpa [after, tells] using ih

theorem Orderly.complete (orderly : Orderly kind told visitor revisions state run)
    (ended : run.result = .ok ()) : run.revisions = revisions := by
  induction orderly with
  | done => rfl
  | failed | gaveUp => cases ended
  | onward _ _ _ _ ih => rw [revisions_after, ih ended]

theorem Orderly.state_eq (orderly : Orderly kind told visitor revisions state run) :
    run.state = visitor.after run.visits state := by
  induction orderly with
  | done | failed => rfl
  | gaveUp _ _ answer => simp [after, stop, Visitor.after, answer]
  | onward _ _ answer _ ih => simpa [after, Visitor.after, answer] using ih

/-- Either every call was answered, or the last one was not and this is the result. -/
theorem Orderly.ends (orderly : Orderly kind told visitor revisions state run) :
    (FailsBy kind run.result ∧ ∀ call ∈ visitor.answers run.visits state, call.2 = .ok ()) ∨
      ∃ before visit reason, run.visits = before ++ [visit] ∧
        run.result = .error (.visitor visit.record.revision reason) ∧
        ∃ calls, visitor.answers run.visits state = calls ++ [(visit, .error reason)] ∧
          ∀ call ∈ calls, call.2 = .ok () := by
  induction orderly with
  | done => exact .inl ⟨failsBy_ok _, nofun⟩
  | failed fails => exact .inl ⟨failsBy_error fails, nofun⟩
  | @gaveUp visit reason _ _ _ answer =>
    exact .inr ⟨[], visit, reason, rfl, rfl, [], by simp [after, stop, Visitor.answers, answer]⟩
  | @onward visit _ state _ run _ answer _ ih =>
    have calls : visitor.answers (after visit run).visits state = (visit, .ok ()) ::
        visitor.answers run.visits (visitor.answer visit state).2 := by
      rw [after, Visitor.answers, answer]
    rw [answer] at calls
    rw [calls]
    rcases ih with ⟨fails, answered⟩ | ⟨before, last, reason, visits, result, front, same, answered⟩
    · exact .inl ⟨fails, by simpa using answered⟩
    · refine .inr ⟨visit :: before, last, reason, ?_, result, (visit, .ok ()) :: front, ?_, ?_⟩
      · rw [after, visits, List.cons_append]
      · rw [same, List.cons_append]
      · simpa using answered

/-- **An orderly iteration keeps to the protocol**, if its own failures are not the visitor's. -/
theorem Orderly.protocol (orderly : Orderly kind told visitor revisions state run)
    (own : ∀ revision reason, ¬kind (.visitor revision reason)) :
    run.Protocol told visitor revisions state := by
  refine ⟨orderly.order, orderly.tells_of_mem, orderly.complete, fun revision reason => ?_,
    fun revision reason => ?_, fun others => ?_, orderly.state_eq⟩
  · rcases orderly.ends with ⟨fails, answered⟩ | ⟨_, last, why, _, result, calls, same, answered⟩
    · refine ⟨fun failed => absurd (fails failed) (own _ _), ?_⟩
      rintro ⟨visit, -, call⟩
      exact nomatch answered _ call
    · rw [result, same]
      refine ⟨fun failed => ?_, ?_⟩
      · obtain ⟨rfl, rfl⟩ := Failure.visitor.inj (Except.error.inj failed)
        exact ⟨last, rfl, by simp⟩
      · rintro ⟨visit, rfl, call⟩
        rcases List.mem_append.1 call with earlier | here
        · exact nomatch answered _ earlier
        · cases List.mem_singleton.1 here
          rfl
  · intro failed
    rcases orderly.ends with ⟨fails, -⟩ | ⟨before, last, why, visits, result, -⟩
    · exact absurd (fails failed) (own _ _)
    · rw [result] at failed
      obtain ⟨rfl, -⟩ := Failure.visitor.inj (Except.error.inj failed)
      rw [Run.revisions, visits]
      simp
  · rcases orderly.ends with ⟨-, answered⟩ | ⟨_, _, _, _, result, _⟩
    · exact answered
    · exact absurd result (others _ _)

/-- An orderly iteration fails by itself or because the visitor gave up. -/
theorem Orderly.failsBy (orderly : Orderly kind told visitor revisions state run) :
    FailsBy (fun failure => kind failure ∨ ∃ revision reason, failure = .visitor revision reason)
      run.result := by
  rcases orderly.ends with ⟨fails, -⟩ | ⟨_, _, _, _, result, _⟩
  · exact fails.mono fun _ => .inl
  · rw [result]
    exact failsBy_error (.inr ⟨_, _, rfl⟩)

end Orderly

end Run

open Run (Orderly)

namespace Log

variable {log : Log} {disk : Disk} {files : Files} {kind : Failure → Prop} {start stop : Revision}

/-! ## Iterations are orderly -/

/-- The visit is with the record of its revision, and with a text if this is wanted. -/
def Tells (log : Log) (disk : Disk) (withContent : Bool) (visit : Visit) : Prop :=
  log.record disk (Int32.ofNat visit.record.revision) = .ok visit.record ∧
    visit.text.isSome = withContent

section Orderly

variable {σ : Type} {visitor : Visitor σ} (few : log.count ≤ 2 ^ 31)
  (opened : log.openFiles disk = .ok files) (covers : log.Covers files kind)

include few opened

/-- The record that a visit is with is that of the revision. -/
theorem record_of_recordIn {revision : Nat} {record : Record} (known : revision < log.count)
    (found : log.recordIn files.index revision = .ok record) :
    record.revision = revision ∧ log.record disk (Int32.ofNat record.revision) = .ok record := by
  have index := (openFiles_eq_ok.1 opened).1
  have asked := record_eq index (check_ofNat few known)
  rw [found] at asked
  have number := revision_of_record asked
  rw [check_ofNat few known] at number
  obtain rfl := Except.ok.inj number
  exact ⟨rfl, asked⟩

include covers

theorem orderly_visitRecords {revisions : List Nat}
    (known : ∀ revision ∈ revisions, revision < log.count) (state : σ) :
    Orderly kind (log.Tells disk false) visitor revisions state
      (log.visitRecords files visitor revisions state) := by
  induction revisions generalizing state with
  | nil => exact .done state
  | cons revision revisions ih =>
    have later := fun other member => known other (List.mem_cons_of_mem _ member)
    rw [visitRecords]
    split
    · rename_i failed
      exact .failed (failsBy_recordIn covers.damage _ _ failed) _ _
    · rename_i record found
      obtain ⟨rfl, asked⟩ := record_of_recordIn few opened (known _ List.mem_cons_self) found
      split
      · rename_i answer
        exact .gaveUp ⟨record, none⟩ ⟨asked, rfl⟩ answer _
      · rename_i answer
        exact .onward ⟨record, none⟩ ⟨asked, rfl⟩ answer (ih later _)

/-- What is passed over is not visited, but reading it can fail. -/
theorem orderly_visitContents (broken : ∀ ⦃failure⦄, failure.IsBreakdown → kind failure)
    {revisions : List Nat} (known : ∀ revision ∈ revisions, revision < log.count) (first : Nat)
    (previous : Option (Nat × Reader)) (state : σ) :
    Orderly kind (log.Tells disk true) visitor (revisions.filter (first ≤ ·)) state
      (log.visitContents files visitor first revisions previous state) := by
  induction revisions generalizing previous state with
  | nil => exact .done state
  | cons revision revisions ih =>
    have later := fun other member => known other (List.mem_cons_of_mem _ member)
    rw [visitContents]
    split
    · rename_i failed
      exact .failed (failsBy_readAfter covers broken _ _ failed) _ _
    · rename_i record text read
      split
      · rename_i before
        rw [List.filter_cons_of_neg (by simpa using before)]
        exact ih later _ _
      · rename_i reached
        obtain ⟨found, -⟩ := readAfter_eq_ok.1 read
        obtain ⟨rfl, asked⟩ := record_of_recordIn few opened (known _ List.mem_cons_self) found
        rw [List.filter_cons_of_pos (by simpa using reached)]
        split
        · rename_i failed
          have blames := Reader.blames_seek 0 text
          rw [Reader.reset] at failed
          rw [failed] at blames
          exact .failed (covers.damage (.file .rewind (blames rfl))) _ _
        · rename_i handed _
          split
          · rename_i answer
            exact .gaveUp ⟨record, some handed⟩ ⟨asked, rfl⟩ (congrArg Prod.fst answer) _
          · rename_i answer
            exact .onward ⟨record, some handed⟩ ⟨asked, rfl⟩ (congrArg Prod.fst answer)
              (ih later _ _)

end Orderly

/-- The log has every revision from the one to the other, either of which may be `Revision.tip`. -/
def HasRange (log : Log) (start stop : Revision) : Prop :=
  0 ≤ start.resolve log.count ∧ start.resolve log.count ≤ stop.resolve log.count ∧
    stop.resolve log.count < log.count

/-- The revisions from the one to the other. -/
def range (log : Log) (start stop : Revision) : List Nat :=
  let first := (start.resolve log.count).toNat
  List.range' first ((stop.resolve log.count).toNat + 1 - first)

theorem checkRange_of_hasRange (has : log.HasRange start stop) : log.checkRange start stop =
    .ok ((start.resolve log.count).toNat, (stop.resolve log.count).toNat) := by
  obtain ⟨low, le, high⟩ := has
  exact checkRange_of_le (Int.toNat_of_nonneg low).symm
    (Int.toNat_of_nonneg (Int.le_trans low le)).symm (by omega) (by omega)

/-- A range that the log does not have is refused, whatever the files hold. -/
theorem checkRange_of_not_hasRange (not : ¬log.HasRange start stop) :
    ∃ invalid, log.checkRange start stop = .error (.invalidRevision invalid) := by
  rw [checkRange]
  split
  · exact ⟨_, rfl⟩
  · split
    · exact ⟨_, rfl⟩
    · exact absurd ⟨by omega, by omega, by omega⟩ not

/-- An iteration over a range that the log does not have visits nothing. -/
theorem run_of_not_hasRange (some : log.count ≠ 0) (not : ¬log.HasRange start stop) :
    ∃ invalid, ∀ {σ : Type} (disk : Disk) (withContent : Bool) (visitor : Visitor σ) (state : σ),
      log.run disk start stop withContent visitor state =
        .stop (.error (.invalidRevision invalid)) state := by
  obtain ⟨invalid, refused⟩ := checkRange_of_not_hasRange not
  refine ⟨invalid, fun disk withContent visitor state => ?_⟩
  rw [run, if_neg some, refused]
  rfl

/-- **Iterations are orderly**, with texts or without, where opening the files and reading them fails
for reasons of some kind. -/
theorem orderly_run {σ : Type} {withContent : Bool} (remembered : log.Remembered)
    (has : log.HasRange start stop) (opens : FailsBy kind (log.openFiles disk))
    (covers : ∀ files, log.openFiles disk = .ok files → log.Covers files kind)
    (broken : withContent → ∀ ⦃failure⦄, failure.IsBreakdown → kind failure)
    (visitor : Visitor σ) (state : σ) :
    Orderly kind (log.Tells disk withContent) visitor (log.range start stop) state
      (log.run disk start stop withContent visitor state) := by
  have few := remembered.count_le
  have checked := checkRange_of_hasRange has
  obtain ⟨le, inside⟩ := checkRange_eq_ok checked
  rw [run, if_neg (by omega), checked, range]
  generalize (start.resolve log.count).toNat = first at *
  generalize (stop.resolve log.count).toNat = last at *
  cases opened : log.openFiles disk with
  | error failure => exact .failed (opens opened) _ _
  | ok files =>
    have covers := covers files opened
    cases withContent with
    | false =>
      refine orderly_visitRecords few opened covers (fun revision member => ?_) state
      rw [List.mem_range'_1] at member
      omega
    | true =>
      have early := remembered.readFrom_le (Nat.lt_of_le_of_lt le inside)
      rw [← filter_range' early le]
      refine orderly_visitContents few opened covers (broken rfl) (fun revision member => ?_) first
        none state
      rw [List.mem_range'_1] at member
      omega

/-- **Every iteration keeps to the protocol**, whatever the files hold. A log without revisions has
nothing to visit. A range that the log does not have is refused before any visit. Otherwise the
visitor is told of the revisions of the range, one after another, until one of them fails. -/
theorem run_protocol {σ : Type} (remembered : log.Remembered) (disk : Disk) (start stop : Revision)
    (withContent : Bool) (visitor : Visitor σ) (state : σ) :
    let run := log.run disk start stop withContent visitor state
    (log.count = 0 → run = .stop (.ok ()) state) ∧
      (log.count ≠ 0 → ¬log.HasRange start stop →
        ∃ invalid, run = .stop (.error (.invalidRevision invalid)) state) ∧
      (log.HasRange start stop →
        run.Protocol (log.Tells disk withContent) visitor (log.range start stop) state) := by
  refine ⟨fun none => run_of_no_revisions none .., fun some not => ?_, fun has => ?_⟩
  · obtain ⟨invalid, stops⟩ := run_of_not_hasRange some not
    exact ⟨invalid, stops ..⟩
  · have opens : FailsBy Failure.OfReading (log.openFiles disk) :=
      FailsBy.bind (fun _ failed => ofReading_of_mapError failed) fun _ _ => failsBy_ok _
    exact (orderly_run remembered has opens (fun files => covers_of_openFiles)
      (fun _ failure broken => broken.ofReading) visitor state).protocol fun _ _ => id

/-- The visitor that reads each text but gives up at the second revision. -/
def givingUp : Visitor Unit :=
  .reading fun record _ _ => (if record.revision = 1 then .error "enough" else .ok (), ())

/-- An iteration over the pair ends at the second revision, which is the last one visited. -/
theorem run_protocol_pair : let run := pairLog.run pairDisk 0 .tip true givingUp ()
    pairLog.Remembered ∧ pairLog.HasRange 0 .tip ∧
      run.Protocol (pairLog.Tells pairDisk true) givingUp [0, 1] () ∧
      run.result = .error (.visitor 1 "enough") ∧ run.revisions.getLast? = some 1 := by
  have remembered := loaded_pair.remembered
  have has : pairLog.HasRange 0 .tip := ⟨by decide, by decide, by decide⟩
  have protocol := (run_protocol remembered pairDisk 0 .tip true givingUp ()).2.2 has
  have ended : (pairLog.run pairDisk 0 .tip true givingUp ()).result =
      .error (.visitor 1 "enough") := by cbv
  exact ⟨remembered, has, protocol, ended, protocol.last 1 "enough" ended⟩

end Log

end RevisionLog
