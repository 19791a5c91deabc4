import Mathlib
import RevisionLog.Proofs.Log.Damage
import RevisionLog.Proofs.Log.Mirror
import RevisionLog.Proofs.Log.Stored

/-!
# Files that grow

While a log is in use, bytes may be put behind those of its index file and its data file. Whatever
was read of a file can be read again at the same place (`Buffer.Steady`), so the files as they were
mirror those that have grown (`Log.mirrors_of_growth`) where reading does not fail. The outline is
kept from the first question on. Hence an answer that was given once is given ever after, however
questions and growth follow one another (`Session.answers_stay`).
-/

namespace RevisionLog

open Outcome (accords_of_ok)

/-! ## Reading what was there before -/

namespace Buffer

variable {bytes : Bytes} {position count : Nat}

theorem take_drop_append (inside : count ≤ bytes.length - position) (more : Bytes) :
    ((bytes ++ more).drop position).take count = (bytes.drop position).take count := by
  rw [List.drop_append, List.take_append_of_le_length (by rwa [List.length_drop])]

/-- The action does the same on a file that has grown, if it succeeded before. -/
def Steady {α : Type} (action : Action α) : Prop :=
  ∀ ⦃bytes position value after⦄, action (whole bytes position) = .ok (value, after) →
    ∀ more, ∃ moved, after = whole bytes moved ∧
      action (whole (bytes ++ more) position) = .ok (value, whole (bytes ++ more) moved)

theorem steady_pure {α : Type} (value : α) : Steady (pure value) := by
  intro bytes position result after run more
  obtain ⟨rfl, rfl⟩ := pure_eq_ok.1 run
  exact ⟨position, rfl, rfl⟩

theorem steady_throw {α : Type} (fault : Fault) : Steady (throw fault : Action α) := by
  intro bytes position value after run
  exact absurd run throw_ne_ok

theorem Steady.bind {α β : Type} {action : Action α} {next : α → Action β} (first : Steady action)
    (second : ∀ value, Steady (next value)) : Steady (action >>= next) := by
  intro bytes position result after run more
  obtain ⟨value, between, run, rest⟩ := bind_eq_ok.1 run
  obtain ⟨moved, rfl, again⟩ := first run more
  obtain ⟨last, rfl, then_⟩ := second value rest more
  exact ⟨last, rfl, bind_eq_ok.2 ⟨value, _, again, then_⟩⟩

theorem steady_read (count : Nat) : Steady (read count) := by
  intro bytes position value after run more
  obtain ⟨enough, rfl, rfl⟩ := read_eq_ok run
  rw [left, length_whole, position_whole] at enough
  refine ⟨position + count, rfl, ?_⟩
  rw [read_of_le (by rw [left, length_whole, position_whole, List.length_append]; omega),
    position_whole, position_whole, span_whole, span_whole, take_drop_append enough]
  rfl

theorem steady_skip (count : Nat) : Steady (skip count) := by
  intro bytes position value after run more
  obtain ⟨inside, rfl, rfl⟩ := skip_whole.1 run
  exact ⟨position + count, rfl,
    skip_whole.2 ⟨by rw [List.length_append]; omega, rfl, rfl⟩⟩

theorem steady_int32 : Steady int32 := (steady_read 4).bind fun _ => steady_pure _

theorem steady_uint64 : Steady uint64 := (steady_read 8).bind fun _ => steady_pure _

/-- What is found at a position stays there. -/
theorem Steady.readAt {α : Type} {action : Action α} {value : α} (steady : Steady action)
    (found : (whole bytes 0).readAt position action = .ok value) (more : Bytes) :
    (whole (bytes ++ more) 0).readAt position action = .ok value := by
  obtain ⟨inside, after, run⟩ := readAt_whole.1 found
  obtain ⟨moved, -, again⟩ := steady run more
  exact readAt_whole.2 ⟨by rw [List.length_append]; omega, _, again⟩

/-- What a window shows stays as it is. -/
theorem window_append {inner : Buffer} (found : (whole bytes 0).window position count = .ok inner)
    (more : Bytes) : ∃ inner', (whole (bytes ++ more) 0).window position count = .ok inner' ∧
      inner.Alike inner' := by
  obtain ⟨inside, -⟩ := window_eq_ok found
  rw [length_whole] at inside
  obtain ⟨before, window, -, -, slice⟩ := window_whole inside
  obtain ⟨after, window', -, -, slice'⟩ :=
    window_whole (show position + count ≤ (bytes ++ more).length by
      rw [List.length_append]; omega)
  obtain rfl : inner = before := Except.ok.inj (found.symm.trans window)
  refine ⟨after, window', alike_of_window found window' ?_⟩
  rw [slice, slice', take_drop_append (by omega)]

end Buffer

theorem Record.steady_read (revision : Nat) : Buffer.Steady (Record.read revision) := by
  refine Buffer.steady_uint64.bind fun word => Buffer.steady_int32.bind fun length =>
    Buffer.steady_int32.bind fun _ => Buffer.steady_int32.bind fun _ =>
    Buffer.steady_int32.bind fun _ => Buffer.steady_int32.bind fun _ =>
    Buffer.steady_int32.bind fun _ => (Buffer.steady_read 20).bind fun _ =>
    (Buffer.steady_skip 12).bind fun _ => ?_
  split
  · exact Buffer.steady_throw _
  · exact Buffer.steady_pure _

/-! ## Files that have grown -/

/-- A file that could be read has got bytes behind those that it had. One that did not exist may
have been created. -/
def Disk.GrowsAt (disk disk' : Disk) (path : String) : Prop :=
  ∀ bytes, disk path = .ok bytes → ∃ more, disk' path = .ok (bytes ++ more)

/-- The second buffer is one of the file that the first one is of, after it has grown. -/
def Buffer.Grown (buffer buffer' : Buffer) : Prop :=
  ∃ bytes more, buffer = .whole bytes 0 ∧ buffer' = .whole (bytes ++ more) 0

theorem Disk.growsAt_refl (disk : Disk) (path : String) : disk.GrowsAt disk path :=
  fun bytes there => ⟨[], by rw [List.append_nil, there]⟩

theorem Disk.GrowsAt.trans {disk disk' disk'' : Disk} {path : String}
    (first : disk.GrowsAt disk' path) (second : disk'.GrowsAt disk'' path) :
    disk.GrowsAt disk'' path := by
  intro bytes there
  obtain ⟨more, there⟩ := first bytes there
  obtain ⟨again, there⟩ := second _ there
  exact ⟨more ++ again, by rw [← List.append_assoc, there]⟩

/-- The files of a log have grown. -/
structure Location.Grows (location : Location) (disk disk' : Disk) : Prop where
  index : disk.GrowsAt disk' location.indexFile
  data : disk.GrowsAt disk' location.dataFile

namespace Log

variable {log : Log} {disk disk' : Disk} {files files' : Files} {record : Record}

/-- What was read at a place of the index can be read there again. -/
theorem accords_readAt {α : Type} {action : Buffer.Action α} (steady : Buffer.Steady action)
    (index more : Bytes) (position : Nat) (path : String) (attempt : Attempt) :
    Outcome.Accords Failure.OfReading Eq
      (((Buffer.whole index 0).readAt position action).mapError (.file path attempt))
      (((Buffer.whole (index ++ more) 0).readAt position action).mapError (.file path attempt)) := by
  refine accords_of_ok (fun value found => ?_) fun failure failed => ofReading_of_mapError failed
  rw [Outcome.mapError_eq_ok] at found
  exact ⟨value, Outcome.mapError_eq_ok.2 (steady.readAt found more), rfl⟩

/-- What was shown at a place of a file is shown there again. -/
theorem accords_window (bytes more : Bytes) (position count : Nat) (path : String)
    (attempt : Attempt) : Outcome.Accords Failure.OfReading Buffer.Alike
      (((Buffer.whole bytes 0).window position count).mapError (.file path attempt))
      (((Buffer.whole (bytes ++ more) 0).window position count).mapError (.file path attempt)) := by
  refine accords_of_ok (fun inner found => ?_) fun failure failed => ofReading_of_mapError failed
  obtain ⟨inner', found', alike⟩ := Buffer.window_append (Outcome.mapError_eq_ok.1 found) more
  exact ⟨inner', Outcome.mapError_eq_ok.2 found', alike⟩

/-- A file that could be opened can be opened when it has grown. -/
theorem accords_open {path : String} (grows : disk.GrowsAt disk' path) (attempt : Attempt) :
    Outcome.Accords Failure.OfReading Buffer.Grown
      ((disk.open path).mapError (.file path attempt))
      ((disk'.open path).mapError (.file path attempt)) := by
  refine accords_of_ok (fun buffer opened => ?_) fun failure failed => ofReading_of_mapError failed
  obtain ⟨bytes, there, same⟩ := Outcome.bind_eq_ok.1 (Outcome.mapError_eq_ok.1 opened)
  cases same
  obtain ⟨more, there'⟩ := grows bytes there
  refine ⟨.whole (bytes ++ more) 0, ?_, bytes, more, rfl, rfl⟩
  rw [Disk.open, there']
  rfl

/-- **Files mirror those that have grown out of them**, as far as they can be read. -/
theorem mirrors_of_growth (index : files.index.Grown files'.index)
    (data : Outcome.Accords Failure.OfReading Buffer.Grown files.data files'.data) :
    Mirrors Failure.OfReading (fun _ => True) log files log files' := by
  obtain ⟨bytes, more, whole, whole'⟩ := index
  refine ⟨rfl, rfl, fun _ _ _ _ => trivial, fun _ _ => rfl, fun n _ => ?_, fun n _ offset _ => ?_,
    fun n _ => ?_, fun n record _ _ => ?_, fun _ _ _ _ _ => ⟨rfl, fun _ _ => trivial⟩,
    fun _ _ _ _ _ _ => trivial⟩
  · rw [whole, whole']
    exact accords_readAt (Record.steady_read n) _ _ _ _ _
  · rw [whole, whole']
    exact accords_readAt Buffer.steady_int32 _ _ _ _ _
  · rw [whole, whole']
    exact accords_readAt (Buffer.steady_read 20) _ _ _ _ _
  · rw [storedChunk, storedChunk, whole, whole']
    split
    · exact accords_window _ _ _ _ _ _
    · refine data.bind fun buffer buffer' _ _ grown => ?_
      obtain ⟨bytes, more, rfl, rfl⟩ := grown
      exact accords_window _ _ _ _ _ _

/-- **What a log answers, it answers when its files have grown.** -/
theorem accords_of_growth (grows : log.toLocation.Grows disk disk') :
    Accords Failure.OfReading log disk log disk' := by
  refine accords_of_mirrors (fun _ => True) rfl (fun _ _ => trivial) ?_
  refine (accords_open grows.index .openIndex).bind fun index index' _ _ grown => ?_
  exact .ok (mirrors_of_growth grown (accords_open grows.data .openData))

end Log

/-! ## Logs in use -/

/-- A log in use: what is remembered of it, and what the files hold. -/
structure Session where
  handle : Handle
  disk : Disk

namespace Session

/-- The log that a question is asked of. -/
def log (session : Session) : Log := session.handle.log session.disk

/-- What is left after a question: the outline is remembered. -/
def asked (session : Session) : Session := ⟨session.log.handle, session.disk⟩

/-- What may happen to a log in use: it is asked something, or its files grow. -/
inductive Step : Session → Session → Prop
  | ask (session : Session) : Step session session.asked
  | grow {session : Session} {disk : Disk}
      (grows : session.handle.toLocation.Grows session.disk disk) :
      Step session { session with disk }

variable {session later : Session}

/-- What is remembered from the first question on stays, and the files grow at most. By induction on
what happens. -/
theorem asked_of_steps (steps : Relation.ReflTransGen Step session.asked later) :
    later.handle = session.log.handle ∧
      session.log.toLocation.Grows session.disk later.disk := by
  induction steps with
  | refl => exact ⟨rfl, Disk.growsAt_refl _ _, Disk.growsAt_refl _ _⟩
  | tail steps step ih =>
    obtain ⟨same, index, data⟩ := ih
    cases step with
    | ask => exact ⟨by rw [asked, log, same]; rfl, index, data⟩
    | grow grows =>
      rw [same] at grows
      exact ⟨same, index.trans grows.index, data.trans grows.data⟩

/-- **An answer that was given once is given ever after.** Whatever is asked after a first question
and however the files grow in between, the log stays the same, with its header, status and number of
revisions. A question that was answered before has the same answer, and an iteration that came to its
end makes the same visits; a question for a revision that the log does not have is rejected in the
same way. -/
theorem answers_stay (steps : Relation.ReflTransGen Step session.asked later) :
    later.log = session.log ∧
      Log.Accords Failure.OfReading session.log session.disk later.log later.disk := by
  obtain ⟨same, grows⟩ := asked_of_steps steps
  have stays : later.log = session.log := by
    rw [log, same]
    rfl
  rw [stays]
  exact ⟨rfl, Log.accords_of_growth grows⟩

/-- The files of the pair with some bytes behind them. -/
def grownPairDisk : Disk := fun path => (Log.pairDisk path).map (· ++ [0, 1])

/-- The second text of the pair is still there when its files have grown, and so is the refusal of a
third one. -/
theorem answers_stay_pair : ∃ later : Session, later.disk = grownPairDisk ∧
    Relation.ReflTransGen Step (asked ⟨Log.pairLog.handle, Log.pairDisk⟩) later ∧
      later.log.content later.disk 1 = .ok [1, 9, 9, 3] ∧
      later.log.content later.disk 2 =
        .error (.invalidRevision (.outOfRange 2 0 1)) := by
  have grows : ∀ path, Disk.GrowsAt Log.pairDisk grownPairDisk path := by
    intro path bytes there
    exact ⟨[0, 1], by rw [grownPairDisk, there]; rfl⟩
  have steps : Relation.ReflTransGen Step (asked ⟨Log.pairLog.handle, Log.pairDisk⟩)
      ⟨Log.pairLog.handle, grownPairDisk⟩ := .single (.grow ⟨grows _, grows _⟩)
  obtain ⟨-, accords⟩ := answers_stay steps
  refine ⟨_, rfl, steps, ?_, ?_⟩
  · exact (accords.content 1).eq_ok (show Log.pairLog.content Log.pairDisk 1 = _ by cbv)
  · exact (accords.content 2).eq_invalidRevision id
      (show Log.pairLog.content Log.pairDisk 2 = _ by cbv)

end Session

end RevisionLog
