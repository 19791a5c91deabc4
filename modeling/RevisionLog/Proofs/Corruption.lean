import RevisionLog.Failure
import RevisionLog.Metadata
import RevisionLog.Patch
import RevisionLog.Record
import RevisionLog.Proofs.Outcome

/-!
# What is to blame

When stored bytes are read and this fails, the bytes are to blame: every fault of a buffer or a
reader is one of the kinds that count as corruption. This holds of the primitive actions and is
passed on by `bind`, so it holds of all actions (`Buffer.Blames`, `Reader.Blames`), of the decoding
and application of patches, and of metadata.
-/

namespace RevisionLog

/-- Whenever the computation fails, it does so for a reason of some kind. -/
def Outcome.FailsBy {ε α : Type} (kind : ε → Prop) (outcome : Except ε α) : Prop :=
  ∀ ⦃failure⦄, outcome = .error failure → kind failure

namespace Outcome

variable {ε ε' α β : Type} {kind : ε → Prop} {kind' : ε' → Prop}

theorem failsBy_ok (value : α) : FailsBy kind (.ok value) := nofun

theorem failsBy_error {failure : ε} (h : kind failure) :
    FailsBy kind (.error failure : Except ε α) := by
  rintro _ ⟨⟩
  exact h

theorem FailsBy.bind {first : Except ε α} {next : α → Except ε β} (before : FailsBy kind first)
    (behind : ∀ value, first = .ok value → FailsBy kind (next value)) :
    FailsBy kind (first >>= next) := by
  cases first with
  | error failure => exact failsBy_error (before rfl)
  | ok value => exact behind value rfl

theorem FailsBy.mapError {outcome : Except ε α} {wrap : ε → ε'} (h : FailsBy kind outcome)
    (wraps : ∀ failure, kind failure → kind' (wrap failure)) :
    FailsBy kind' (outcome.mapError wrap) := by
  cases outcome with
  | error failure => exact failsBy_error (wraps failure (h rfl))
  | ok value => exact failsBy_ok value

theorem FailsBy.mono {kind' : ε → Prop} {outcome : Except ε α} (h : FailsBy kind outcome)
    (includes : ∀ failure, kind failure → kind' failure) : FailsBy kind' outcome :=
  fun _ failed => includes _ (h failed)

/-- A computation for each element of a list fails as one of them does. -/
theorem FailsBy.mapM {f : α → Except ε β} (each : ∀ a, FailsBy kind (f a)) (as : List α) :
    FailsBy kind (as.mapM f) := by
  induction as with
  | nil => exact failsBy_ok _
  | cons a as ih =>
    rw [List.mapM_cons]
    exact (each a).bind fun _ _ => ih.bind fun _ _ => failsBy_ok _

end Outcome

open Outcome (FailsBy failsBy_ok failsBy_error)

/-- A fault that is in the stored bytes. -/
abbrev Fault.IsCorrupt (fault : Fault) : Prop := fault.isCorruption = true

/-- A failure that is due to damaged data. -/
abbrev Failure.IsCorrupt (failure : Failure) : Prop := failure.isCorruption = true

/-! ## Buffers -/

namespace Buffer

/-- Whenever the action fails, the bytes are to blame. -/
def Blames {α : Type} (action : Action α) : Prop :=
  ∀ buffer, FailsBy Fault.IsCorrupt (action buffer)

theorem blames_pure {α : Type} (value : α) : Blames (pure value) := fun _ => failsBy_ok _

theorem blames_throw {α : Type} {fault : Fault} (h : fault.IsCorrupt) :
    Blames (throw fault : Action α) := fun _ => failsBy_error h

theorem Blames.bind {α β : Type} {action : Action α} {next : α → Action β} (first : Blames action)
    (second : ∀ value, Blames (next value)) : Blames (action >>= next) :=
  fun buffer => (first buffer).bind fun found _ => second found.1 found.2

theorem blames_read (count : Nat) : Blames (read count) := by
  intro buffer
  rw [read]
  split
  · exact failsBy_ok _
  · exact failsBy_error rfl

theorem blames_skip (count : Nat) : Blames (skip count) := by
  intro buffer
  rw [skip]
  split
  · exact failsBy_ok _
  · exact failsBy_error rfl

theorem blames_seek (target : Nat) : Blames (seek target) := by
  intro buffer
  rw [seek]
  split
  · exact failsBy_ok _
  · exact failsBy_error rfl

theorem blames_int32 : Blames int32 := (blames_read 4).bind fun _ => blames_pure _

theorem blames_uint64 : Blames uint64 := (blames_read 8).bind fun _ => blames_pure _

theorem Blames.readAt {α : Type} {action : Action α} (blames : Blames action) (buffer : Buffer)
    (position : Nat) : FailsBy Fault.IsCorrupt (buffer.readAt position action) :=
  (blames_seek position buffer).bind fun there _ =>
    (blames there.2).bind fun _ _ => failsBy_ok _

theorem blames_window (buffer : Buffer) (offset count : Nat) :
    FailsBy Fault.IsCorrupt (buffer.window offset count) := by
  rw [window]
  split
  · exact failsBy_ok _
  · exact failsBy_error rfl

end Buffer

theorem Record.blames_read (revision : Nat) : Buffer.Blames (Record.read revision) := by
  refine Buffer.blames_uint64.bind fun word => Buffer.blames_int32.bind fun length =>
    Buffer.blames_int32.bind fun _ => Buffer.blames_int32.bind fun _ =>
    Buffer.blames_int32.bind fun _ => Buffer.blames_int32.bind fun _ =>
    Buffer.blames_int32.bind fun _ => (Buffer.blames_read 20).bind fun _ =>
    (Buffer.blames_skip 12).bind fun _ => ?_
  split
  · exact Buffer.blames_throw rfl
  · exact Buffer.blames_pure _

/-! ## Readers -/

namespace Reader

/-- Whenever the action fails, the bytes are to blame. -/
def Blames {α : Type} (action : Action α) : Prop :=
  ∀ reader, FailsBy Fault.IsCorrupt (action reader).1

theorem blames_pure {α : Type} (value : α) : Blames (pure value) := fun _ => failsBy_ok _

theorem blames_throw {α : Type} {fault : Fault} (h : fault.IsCorrupt) :
    Blames (throw fault : Action α) := fun _ => failsBy_error h

theorem Blames.bind {α β : Type} {action : Action α} {next : α → Action β} (first : Blames action)
    (second : ∀ value, Blames (next value)) : Blames (action >>= next) := by
  intro reader
  rw [bind_apply]
  have before := first reader
  split
  · exact second _ _
  · rename_i run
    rw [run] at before
    exact failsBy_error (before rfl)

/-- Where a stream breaks off it is to blame, and otherwise whoever wanted more of it. -/
theorem isCorrupt_endFault (inflater : Inflater) {fault : Fault} (h : fault.IsCorrupt) :
    (inflater.endFault fault).IsCorrupt := by
  rw [Inflater.endFault]
  split
  · exact h
  · rfl
  · rfl

theorem blames_choose {α : Type} {onBuffer : Buffer.Action α} {onInflater : Inflater.Action α}
    (buffers : Buffer.Blames onBuffer)
    (inflaters : ∀ inflater, FailsBy Fault.IsCorrupt (onInflater inflater).1) :
    Blames (choose onBuffer onInflater) := by
  rintro (buffer | inflater)
  · have blames := buffers buffer
    rw [choose]
    split
    · exact failsBy_ok _
    · rename_i run
      exact failsBy_error (blames run)
  · exact inflaters inflater

theorem blames_inflater_skip (count : Nat) (inflater : Inflater) :
    FailsBy Fault.IsCorrupt (Inflater.skip count inflater).1 := by
  rw [Inflater.skip]
  split
  · exact failsBy_ok _
  · exact failsBy_error (isCorrupt_endFault inflater rfl)

theorem blames_read (count : Nat) : Blames (read count) := by
  refine blames_choose (Buffer.blames_read count) fun inflater => ?_
  rw [Inflater.read]
  split
  · exact failsBy_ok _
  · exact failsBy_error (isCorrupt_endFault inflater rfl)

theorem blames_seek (target : Nat) : Blames (seek target) := by
  refine blames_choose (Buffer.blames_seek target) fun inflater => ?_
  rw [Inflater.seek]
  split
  · exact blames_inflater_skip _ _
  · exact blames_inflater_skip _ _

theorem blames_length (reader : Reader) : FailsBy Fault.IsCorrupt reader.length := by
  cases reader with
  | plain buffer => exact failsBy_ok _
  | inflating inflater =>
    rw [length, Inflater.length]
    split
    · exact failsBy_ok _
    · exact failsBy_error rfl
    · exact failsBy_error rfl

theorem blames_getLength : Blames getLength := blames_length

theorem blames_getLeft : Blames getLeft := by
  intro reader
  have blames := blames_length reader
  rw [getLeft]
  cases length : reader.length with
  | error fault => exact failsBy_error (blames length)
  | ok count => exact failsBy_ok _

theorem blames_isEmpty : Blames isEmpty := by
  intro reader
  have blames := blames_length reader
  rw [isEmpty]
  cases length : reader.length with
  | error fault => exact failsBy_error (blames length)
  | ok count => exact failsBy_ok _

theorem blames_int32 : Blames int32 := (blames_read 4).bind fun _ => blames_pure _

theorem blames_rest : Blames rest := blames_getLeft.bind fun _ => blames_read _

end Reader

/-! ## Patches -/

theorem Fragment.blames_read : Reader.Blames Fragment.read := by
  refine Reader.blames_int32.bind fun start => Reader.blames_int32.bind fun stop =>
    Reader.blames_int32.bind fun length => ?_
  split
  · exact Reader.blames_throw rfl
  · refine Reader.blames_getLeft.bind fun left => ?_
    split
    · exact Reader.blames_throw rfl
    · exact (Reader.blames_read _).bind fun data => Reader.blames_pure _

namespace Patch

theorem blames_read : Reader.Blames Patch.read := by
  intro reader
  fun_induction Patch.read reader with
  | case1 reader fault moved empty =>
    have blames := Reader.blames_isEmpty reader
    rw [empty] at blames
    exact failsBy_error (blames rfl)
  | case2 => exact failsBy_ok _
  | case3 reader moved empty fault after first =>
    have blames := Fragment.blames_read moved
    rw [first] at blames
    exact failsBy_error (blames rfl)
  | case4 reader moved empty fragment after first fragments last rest ih =>
    rw [rest] at ih
    cases fragments with
    | error fault => exact failsBy_error (ih rfl)
    | ok patch => exact failsBy_ok _

theorem blames_outputLength (baseLength done : Nat) (patch : Patch) :
    FailsBy Fault.IsCorrupt (outputLength baseLength done patch) := by
  induction patch generalizing done with
  | nil => exact failsBy_ok _
  | cons fragment patch ih =>
    rw [outputLength]
    split
    · exact (ih _).bind fun _ _ => failsBy_ok _
    · exact failsBy_error rfl

theorem blames_span (start stop : Nat) : Reader.Blames (span start stop) := by
  rw [span]
  split
  · exact Reader.blames_pure _
  · exact (Reader.blames_seek start).bind fun _ => Reader.blames_read _

theorem blames_splice (baseLength done : Nat) (patch : Patch) :
    Reader.Blames (splice baseLength done patch) := by
  induction patch generalizing done with
  | nil => exact blames_span _ _
  | cons fragment patch ih =>
    exact (blames_span _ _).bind fun _ => (ih _).bind fun _ => Reader.blames_pure _

theorem blames_apply (declared : Int32) (patch : Patch) : Reader.Blames (apply declared patch) := by
  refine Reader.blames_getLength.bind fun baseLength => ?_
  have lifted : Reader.Blames (liftM (outputLength baseLength 0 patch) : Reader.Action Int) := by
    intro reader
    rw [Reader.liftM_apply]
    exact blames_outputLength baseLength 0 patch
  refine lifted.bind fun computed => ?_
  split
  · exact Reader.blames_throw rfl
  · exact blames_splice _ _ _

end Patch

/-! ## Metadata -/

theorem Metadata.blames_parseLine (line : Bytes) :
    FailsBy Fault.IsCorrupt (Metadata.parseLine line) := by
  rw [parseLine]
  split
  · exact failsBy_error rfl
  · exact failsBy_ok _

theorem Metadata.blames_parse (text : Bytes) : FailsBy Fault.IsCorrupt (Metadata.parse text) := by
  rw [parse]
  split
  · exact failsBy_ok _
  · split
    · exact failsBy_error rfl
    · exact (FailsBy.mapM blames_parseLine _).bind fun _ _ => failsBy_ok _

end RevisionLog
