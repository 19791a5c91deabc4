import RevisionLog.Proofs.Log.Visits

/-!
# How questions fail

Where the files of a log are regular ones or not there, a question fails in one of three ways only:
it is about a revision that the log does not have, the files are damaged, or a visitor gave up. Which
revisions the log has is known from its outline, so the first of these does not depend on what the
files hold by now, and it is the only one if the log does not have the revision. A search by node id
is not about a revision; it is refused only by `FileLog.length`, and only if it finds nothing.
`FileLog.Classified` says this of all questions, and `FileLog.classified` that it is so.

A search that finds nothing is one for an id that no revision has, but for a log of as many
revisions as there are numbers for: there every search finds nothing (`FileLog.Misses`).
-/

namespace RevisionLog

open Outcome (FailsBy failsBy_ok failsBy_error)

namespace FileLog

/-- A search for an id finds nothing. -/
structure Misses (file : FileLog) (disk : Disk) (node : NodeId) : Prop where
  find : file.find disk node = .ok .bad
  revision? : file.revision? disk node = .ok none
  length : file.length disk node = .error (.invalidRevision (.ofNode node))

/-- Every question to the log of a tracked file fails as it should. -/
structure Classified (file : FileLog) : Prop where
  /-- A revision that the log does not have is refused in the same way ever after. -/
  refused : ∀ number, ¬file.HasRevision number → ∃ invalid, ∀ disk,
    file.Replies (fun outcome => outcome = .error (.invalidRevision invalid)) disk number
  /-- A question about any other revision is answered, or the files are damaged. -/
  answered : ∀ number, file.HasRevision number → ∀ disk, file.Accessible disk →
    file.Replies (FailsBy Failure.IsCorrupt) disk number
  noRevisions : file.count = 0 → ∀ {σ : Type} (disk : Disk) (start stop : Revision)
    (withContent : Bool) (visitor : Visitor σ) (state : σ),
    file.iterate disk start stop withContent visitor state = (.ok (), state)
  /-- A range that the log does not have is refused in the same way ever after. -/
  rangeRefused : ∀ start stop, file.count ≠ 0 → ¬file.HasRange start stop →
    ∃ invalid, ∀ {σ : Type} (disk : Disk) (withContent : Bool) (visitor : Visitor σ) (state : σ),
      file.iterate disk start stop withContent visitor state =
        (.error (.invalidRevision invalid), state)
  /-- An iteration over any other range comes to its end, the files are damaged, or the visitor
  gives up; if texts are read, it may also break down and not return. -/
  iterated : ∀ start stop, file.HasRange start stop → ∀ {σ : Type} (disk : Disk),
    file.Accessible disk → ∀ (withContent : Bool) (visitor : Visitor σ) (state : σ),
      FailsBy (fun failure => (failure.IsCorrupt ∨ withContent ∧ failure.IsBreakdown) ∨
          ∃ revision reason, failure = .visitor revision reason)
        (file.iterate disk start stop withContent visitor state).1
  /-- A search is never refused. -/
  searched : ∀ disk node, file.Accessible disk →
    FailsBy Failure.IsCorrupt (file.find disk node) ∧
      FailsBy Failure.IsCorrupt (file.revision? disk node)
  /-- A search that finds nothing is one for an id that no revision has, if there is a word for the
  number of revisions. -/
  absent : file.count < 2 ^ 31 → ∀ disk node, file.find disk node = .ok .bad →
    ∀ number, file.node disk number ≠ .ok node
  /-- Otherwise every search finds nothing. -/
  missed : file.count = 2 ^ 31 → ∀ disk node, file.Accessible disk → file.Misses disk node
  measured : ∀ disk node, file.Accessible disk →
    FailsBy (fun failure => failure.IsCorrupt ∨ failure = .invalidRevision (.ofNode node))
      (file.length disk node)
  /-- The length of a text is refused exactly where the search for its id finds nothing. -/
  lengthRefused : ∀ disk node, file.Accessible disk → ∀ invalid,
    file.length disk node = .error (.invalidRevision invalid) ↔
      invalid = .ofNode node ∧ file.find disk node = .ok .bad

variable {file : FileLog} {disk : Disk} {node : NodeId} {number : Revision}

theorem misses_of_find (absent : file.find disk node = .ok .bad) : file.Misses disk node := by
  have nothing : file.revision? disk node = .ok none := by
    rw [revision?, absent]
    rfl
  refine ⟨absent, nothing, ?_⟩
  rw [length, nothing]
  rfl

theorem length_of_find (found : file.find disk node = .ok number) (there : number ≠ .bad) :
    file.length disk node = file.textLength disk number := by
  rw [length, revision?, found]
  show ((.ok (if number = .bad then none else some number) : Except Failure (Option Revision)) >>=
    _) = _
  rw [if_neg there]
  rfl

section Accessible

variable (accessible : file.Accessible disk)

include accessible

theorem failsBy_searched (node : NodeId) : FailsBy Failure.IsCorrupt (file.find disk node) :=
  (Log.failsBy_find accessible node).mono fun _ => Log.Damage.isCorrupt

/-- The length of a text fails as the search for its id does, or is refused if that finds nothing,
or is asked of a revision that the log has. -/
theorem failsBy_length (most : file.count ≤ 2 ^ 31) :
    FailsBy (fun failure => failure.IsCorrupt ∨
      failure = .invalidRevision (.ofNode node) ∧ file.find disk node = .ok .bad)
      (file.length disk node) := by
  have searched := failsBy_searched accessible node
  cases find : file.find disk node with
  | error failure =>
    rw [length, revision?, find]
    exact failsBy_error (.inl (searched find))
  | ok number =>
    rcases Log.find_eq_ok most find with ⟨there, revision, checked⟩ | ⟨rfl, -⟩
    · rw [length_of_find find there]
      exact (Log.replies_of_known accessible checked).textLength.mono
        fun _ damage => .inl damage.isCorrupt
    · rw [(misses_of_find find).length]
      exact failsBy_error (.inr ⟨rfl, rfl⟩)

/-- A search among as many revisions as there are numbers for finds nothing. -/
theorem misses_of_full (full : file.count = 2 ^ 31) (node : NodeId) : file.Misses disk node := by
  obtain ⟨files, opened, -⟩ := Log.openFiles_of_accessible accessible
  exact misses_of_find (Log.find_of_full node full (Log.openFiles_eq_ok.1 opened).1)

end Accessible

/-- **Failures fall into their classes.** Whatever is asked of the log of a tracked file, the caller's
choice of revision is refused on what is remembered of the log alone, and a question that is not
refused fails by damage to the files or by a visitor, but never because of how they are reached. The
length of a text is refused for an id that no revision has, unless there are as many revisions as
there are numbers for; then it is refused for every id. -/
theorem classified (remembered : file.Remembered) : file.Classified := by
  have most := remembered.count_le
  refine ⟨fun number not => ?_, fun number has disk accessible => ?_, fun none => ?_,
    fun start stop some not => ?_, ?_, fun disk node accessible => ?_,
    fun few disk node found number => ?_,
    fun full disk node accessible => misses_of_full accessible full node,
    fun disk node accessible => ?_, fun disk node accessible invalid => ?_⟩
  · exact ⟨_, fun disk => replies_of_refused (Log.check_of_not_hasRevision not)⟩
  · exact (replies_of_known accessible has.check).mono fun fails =>
      fails.mono fun _ => Log.Damage.isCorrupt
  · intro σ disk start stop withContent visitor state
    rw [Log.iterate, Log.run_of_no_revisions none]
    rfl
  · obtain ⟨invalid, stops⟩ := Log.run_of_not_hasRange some not
    refine ⟨invalid, fun disk withContent visitor state => ?_⟩
    rw [Log.iterate, stops]
    rfl
  · intro start stop has σ disk accessible withContent visitor state
    obtain ⟨files, opened, readable⟩ := Log.openFiles_of_accessible accessible
    have opens : FailsBy (fun failure => failure.IsCorrupt ∨ withContent ∧ failure.IsBreakdown)
        (file.openFiles disk) := by
      rw [opened]
      exact failsBy_ok files
    refine (Log.orderly_run remembered has opens (fun others same => ?_)
      (fun wanted _ broken => .inr ⟨wanted, broken⟩) visitor state).failsBy
    rw [opened] at same
    cases same
    exact Log.covers_of_readable (fun _ damage => .inl damage.isCorrupt) readable
  · have searched := failsBy_searched accessible node
    exact ⟨searched, searched.bind fun _ _ => failsBy_ok _⟩
  · rcases Log.find_eq_ok most found with ⟨there, -⟩ | ⟨-, none⟩
    · exact absurd rfl there
    · exact none few number
  · exact (failsBy_length accessible most).mono fun _ => Or.imp_right And.left
  · refine ⟨fun failed => ?_, ?_⟩
    · rcases failsBy_length accessible most failed with corrupt | ⟨same, find⟩
      · cases corrupt
      · exact ⟨Failure.invalidRevision.inj same, find⟩
    · rintro ⟨rfl, find⟩
      exact (misses_of_find find).length

/-- The pair has a last revision, which can be had unless it is damaged, but no third one. -/
theorem classified_pair : let file : FileLog := ⟨Log.pairLog, "a"⟩
    file.Remembered ∧ file.Accessible Log.pairDisk ∧ file.HasRevision .tip ∧ ¬file.HasRevision 2 ∧
      file.Replies (FailsBy Failure.IsCorrupt) Log.pairDisk .tip ∧
      ∃ invalid, ∀ disk,
        file.Replies (fun outcome => outcome = .error (.invalidRevision invalid)) disk 2 := by
  have remembered := Log.loaded_pair.remembered
  have accessible : Log.pairLog.Accessible Log.pairDisk := ⟨⟨_, rfl⟩, _, rfl⟩
  have has : Log.pairLog.HasRevision .tip := ⟨by decide, by decide⟩
  have not : ¬Log.pairLog.HasRevision 2 := fun other => absurd other.2 (by decide)
  have classified : Classified ⟨Log.pairLog, "a"⟩ := classified remembered
  exact ⟨remembered, accessible, has, not, classified.answered .tip has Log.pairDisk accessible,
    classified.refused 2 not⟩

/-- The files of a log with a data file are there. -/
theorem accessible_split (revisions : List Stored) :
    (Log.splitLog revisions).Accessible (Log.splitDisk revisions) := ⟨⟨_, rfl⟩, _, rfl⟩

/-- As many revisions as there are numbers for all have the null id, and the length of the text with
that id is refused. -/
theorem length_refused_full : let file : FileLog := ⟨Log.splitLog (Log.crowd (2 ^ 31)), "a"⟩
    file.Remembered ∧ file.Accessible (Log.splitDisk (Log.crowd (2 ^ 31))) ∧
      file.node (Log.splitDisk (Log.crowd (2 ^ 31))) 0 = .ok .null ∧
      file.length (Log.splitDisk (Log.crowd (2 ^ 31))) .null =
        .error (.invalidRevision (.ofNode .null)) := by
  intro file
  have accessible : file.Accessible (Log.splitDisk (Log.crowd (2 ^ 31))) := accessible_split _
  obtain ⟨record, found, node⟩ := Log.node_crowd (Nat.le_refl (2 ^ 31)) (n := 0) (by decide)
  refine ⟨(Log.loaded_crowd (by decide) (Nat.le_refl _)).remembered, accessible, ?_,
    (misses_of_full accessible (Log.count_crowd _) .null).length⟩
  show Log.node _ _ (Int32.ofNat 0) = _
  rw [Log.node, found, ← node]
  rfl

end FileLog

end RevisionLog
