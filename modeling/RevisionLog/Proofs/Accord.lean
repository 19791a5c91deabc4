import RevisionLog.Failure
import RevisionLog.Proofs.Outcome

/-!
# Outcomes that accord

The same question may be asked of two logs, or of one log at two times. `Outcome.Accords` says that
the second outcome is as good as the first: results are alike, failures are the same but for the
file that they name, and after a failure that is excused anything may come. It is passed on by
`bind`, so computations accord if their steps do.
-/

namespace RevisionLog

/-- The failure without the file that it names. -/
def Failure.anywhere : Failure → Failure
  | .file _ attempt fault => .file "" attempt fault
  | .deltaParent _ revision parent guarded => .deltaParent "" revision parent guarded
  | .copyRevision _ revision fault => .copyRevision "" revision fault
  | .unknownCompression _ revision header => .unknownCompression "" revision header
  | .invalidRevision invalid => .invalidRevision invalid
  | .visitor revision reason => .visitor revision reason

namespace Outcome

variable {α α' β β' : Type} {excused : Failure → Prop} {alike : α → α' → Prop}
  {alike' : β → β' → Prop}

/-- The second outcome is as good as the first. -/
inductive Accords (excused : Failure → Prop) (alike : α → α' → Prop) :
    Except Failure α → Except Failure α' → Prop
  | ok {value : α} {value' : α'} (same : alike value value') :
      Accords excused alike (.ok value) (.ok value')
  | error {failure failure' : Failure} (same : failure.anywhere = failure'.anywhere) :
      Accords excused alike (.error failure) (.error failure')
  | excused {failure : Failure} {outcome : Except Failure α'} (excuse : excused failure) :
      Accords excused alike (.error failure) outcome

/-- A computation that succeeds only with what the other one makes, too, and else is excused. -/
theorem accords_of_ok {first : Except Failure α} {second : Except Failure α'}
    (passes : ∀ value, first = .ok value → ∃ value', second = .ok value' ∧ alike value value')
    (excuse : ∀ failure, first = .error failure → excused failure) :
    Accords excused alike first second := by
  cases first with
  | error failure => exact .excused (excuse failure rfl)
  | ok value =>
    obtain ⟨value', rfl, same⟩ := passes value rfl
    exact .ok same

theorem Accords.bind {first : Except Failure α} {first' : Except Failure α'}
    {next : α → Except Failure β} {next' : α' → Except Failure β'}
    (before : Accords excused alike first first')
    (behind : ∀ value value', first = .ok value → first' = .ok value' → alike value value' →
      Accords excused alike' (next value) (next' value')) :
    Accords excused alike' (first >>= next) (first' >>= next') := by
  cases before with
  | ok same => exact behind _ _ rfl rfl same
  | error same => exact .error same
  | excused excuse => exact .excused excuse

theorem Accords.map {outcome : Except Failure α} {outcome' : Except Failure α'} {f : α → β}
    {f' : α' → β'} (accords : Accords excused alike outcome outcome')
    (keeps : ∀ value value', alike value value' → alike' (f value) (f' value')) :
    Accords excused alike' (outcome.map f) (outcome'.map f') := by
  cases accords with
  | ok same => exact .ok (keeps _ _ same)
  | error same => exact .error same
  | excused excuse => exact .excused excuse

/-- Equal faults are the same failure, in whichever files they are. -/
theorem accords_mapError {outcome outcome' : Except Fault α} (same : outcome = outcome')
    (path path' : String) (attempt : Attempt) :
    Accords excused Eq (outcome.mapError (.file path attempt))
      (outcome'.mapError (.file path' attempt)) := by
  subst same
  cases outcome with
  | ok value => exact .ok rfl
  | error fault => exact .error rfl

/-- A success stays, with the same value. -/
theorem Accords.eq_ok {outcome outcome' : Except Failure α} {value : α}
    (accords : Accords excused Eq outcome outcome') (h : outcome = .ok value) :
    outcome' = .ok value := by
  subst h
  cases accords with
  | ok same => rw [same]

/-- A revision that is not there is rejected in the same way, unless that is excused. -/
theorem Accords.eq_invalidRevision {outcome : Except Failure α} {outcome' : Except Failure α'}
    {invalid : InvalidRevision} (accords : Accords excused alike outcome outcome')
    (unexcused : ¬excused (.invalidRevision invalid))
    (h : outcome = .error (.invalidRevision invalid)) :
    outcome' = .error (.invalidRevision invalid) := by
  subst h
  cases accords with
  | @error _ failure same =>
    cases failure <;> cases same
    rfl
  | excused excuse => exact absurd excuse unexcused

end Outcome

end RevisionLog
