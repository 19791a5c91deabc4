import Mathlib
import RevisionLog.Proofs.Patch.Reading
import RevisionLog.Proofs.Reader.Left

/-!
# Inflaters show what their stream decodes to

An inflater over a complete stream is compared with a buffer of the bytes that the stream decodes
to (`Inflater.shows_decoded`). As long as nothing fails both are in step with the text, and so they
agree on every request (`Reader.uniform_perform`) and on every history of requests
(`Reader.At.history`, by induction on the history).

After a failure the inflater may have run ahead of the position that it reports, and then it is at
the end of the text. There it has nothing to deliver, so a read that delivers something shows that
the inflater is in step (`Reader.Has.at_of_read`), and what it delivers is right.
-/

namespace RevisionLog

namespace Patch

open Reader (Uniform)

theorem uniform_span (start stop : Nat) : Uniform (span start stop) := by
  unfold span
  split
  · exact Reader.uniform_pure _
  · exact (Reader.uniform_seek _).bind fun _ => Reader.uniform_read _

theorem uniform_splice (baseLength done : Nat) (patch : Patch) :
    Uniform (splice baseLength done patch) := by
  induction patch generalizing done with
  | nil => exact uniform_span done baseLength
  | cons fragment patch ih =>
    exact (uniform_span _ _).bind fun before => (ih _).bind fun behind => Reader.uniform_pure _

theorem uniform_apply (declared : Int32) (patch : Patch) :
    Uniform (Patch.apply declared patch) := by
  refine Reader.uniform_getLength.bind fun baseLength =>
    (Reader.uniform_liftM _).bind fun computed => ?_
  split
  · exact Reader.uniform_throw _
  · exact uniform_splice _ _ _

end Patch

namespace Reader

variable {text : Bytes} {position count : Nat} {reader other : Reader} {request : Request}

/-! ## Requests that see the text only -/

/-- A request has the same answer on all readers at one position of a text, or fails on all. -/
theorem uniform_perform (request : Request) : Uniform (perform request) := by
  cases request with
  | length => exact uniform_getLength.bind fun _ => uniform_pure _
  | position =>
    intro text position reader other left right
    show Agree text (.ok (Value.number reader.position), reader)
      (.ok (Value.number other.position), other)
    rw [left.position_eq, right.position_eq]
    exact .ok _ left right
  | seek target => exact (uniform_seek target).bind fun _ => uniform_pure _
  | skip count => exact (uniform_skip count).bind fun _ => uniform_pure _
  | reset => exact (uniform_seek 0).bind fun _ => uniform_pure _
  | isEmpty => exact uniform_isEmpty.bind fun _ => uniform_pure _
  | read count => exact (uniform_read count).bind fun _ => uniform_pure _
  | uint8 => exact ((uniform_read 1).bind fun _ => uniform_pure _).bind fun _ => uniform_pure _
  | int32 => exact uniform_int32.bind fun _ => uniform_pure _
  | int64 => exact ((uniform_read 8).bind fun _ => uniform_pure _).bind fun _ => uniform_pure _
  | rest => exact uniform_rest.bind fun _ => uniform_pure _
  | fragment => exact Fragment.uniform_read.bind fun _ => uniform_pure _
  | patch => exact Patch.uniform_read.bind fun _ => uniform_pure _
  | apply declared patch => exact (Patch.uniform_apply declared patch).bind fun _ => uniform_pure _

theorem Agree.ok_iff {α : Type} {run run' : Except Fault α × Reader} (agree : Agree text run run')
    (value : α) : run.1 = .ok value ↔ run'.1 = .ok value := by
  cases agree with
  | ok => exact Iff.rfl
  | error => exact ⟨nofun, nofun⟩

theorem Agree.at_of_ok {α : Type} {run run' : Except Fault α × Reader} {value : α}
    (agree : Agree text run run') (told : run.1 = .ok value) :
    ∃ position, At text position run.2 ∧ At text position run'.2 := by
  cases agree with
  | ok _ left right => exact ⟨_, left, right⟩
  | error => cases told

theorem At.position_eq_position (left : At text position reader) (right : At text position other) :
    reader.position = other.position := left.position_eq.trans right.position_eq.symm

/-! ## Histories -/

/-- The answers to requests that are made one after another, and the reader after them. -/
def history (past : List Request) (reader : Reader) : List Answer × Reader :=
  (Client.askAll id past).run reader

theorem run_askAll {α : Type} (result : List Answer → α) (past : List Request) (reader : Reader) :
    (Client.askAll result past).run reader =
      (result (reader.history past).1, (reader.history past).2) := by
  induction past generalizing α result reader with
  | nil => rfl
  | cons request past ih =>
    have first : ∀ {α : Type} (result : List Answer → α),
        (Client.askAll result (request :: past)).run reader =
          (Client.askAll (fun answers => result ((reader.answer request).1 :: answers)) past).run
            (reader.answer request).2 := fun _ => rfl
    rw [history, first, first, ih, ih]
    rfl

theorem history_cons (request : Request) (past : List Request) (reader : Reader) :
    reader.history (request :: past) =
      ((reader.answer request).1 :: ((reader.answer request).2.history past).1,
        ((reader.answer request).2.history past).2) :=
  run_askAll (fun answers => (reader.answer request).1 :: answers) past _

/-- As long as nothing has failed, readers at one position of a text give the same answers and
come to one position. -/
theorem At.history (left : At text position reader) (right : At text position other)
    (past : List Request) (fine : ∀ answer ∈ (reader.history past).1, ∃ value, answer = .ok value) :
    (reader.history past).1 = (other.history past).1 ∧
      ∃ position, At text position (reader.history past).2 ∧
        At text position (other.history past).2 := by
  induction past generalizing position reader other with
  | nil => exact ⟨rfl, position, left, right⟩
  | cons request past ih =>
    have agree : Agree text (reader.answer request) (other.answer request) :=
      uniform_perform request left right
    rw [history_cons] at fine ⊢
    rw [history_cons]
    obtain ⟨⟨value, first⟩, later⟩ := List.forall_mem_cons.1 fine
    obtain ⟨between, left, right⟩ := agree.at_of_ok first
    obtain ⟨same, there⟩ := ih left right later
    refine ⟨?_, there⟩
    rw [first, (agree.ok_iff value).1 first, same]

/-- Whatever has been asked, a reader of the text is left. -/
theorem Has.history (has : Has text reader) (past : List Request) :
    Has text (reader.history past).2 := Client.has _ has

/-! ## Reading after failures -/

/-- A decoder that delivers bytes has not run ahead. -/
theorem Has.at_of_read (has : Has text reader) (some : 0 < count) {bytes : Bytes}
    (told : (Reader.read count reader).1 = .ok bytes) : At text reader.position reader := by
  cases has with
  | plain fits slice inside => exact .plain fits slice rfl inside
  | @inflating position taken inside decoder =>
    obtain rfl | rfl := decoder
    · exact .inflating inside
    · have none : text.toArray.size - text.length < count := by rwa [List.size_toArray, Nat.sub_self]
      rw [Reader.read, choose_inflating (Inflater.read_of_lt none)] at told
      cases told

/-- A read that delivers bytes delivers those of the text at the position, and moves over them. -/
theorem Has.read (has : Has text reader) (some : 0 < count) {bytes : Bytes}
    (told : (Reader.read count reader).1 = .ok bytes) :
    reader.position + count ≤ text.length ∧ bytes = (text.drop reader.position).take count ∧
      (Reader.read count reader).2.position = reader.position + count := by
  have there := has.at_of_read some told
  by_cases inside : reader.position + count ≤ text.length
  · obtain ⟨moved, run, behind⟩ := there.read count inside
    rw [run] at told ⊢
    exact ⟨inside, (Except.ok.inj told).symm, behind.position_eq⟩
  · obtain ⟨fault, moved, run⟩ := there.read_error (Nat.lt_of_not_le inside)
    rw [run] at told
    cases told

end Reader

/-- How many bytes a request reads where some are left, and what it makes of them. -/
def Request.reading? (left : Nat) : Request → Option (Nat × (Bytes → Value))
  | .read count => some (count, .bytes)
  | .uint8 => some (1, fun bytes => .number (UInt8.ofNat bytes.toNat).toNat)
  | .int32 => some (4, fun bytes => .number (Bytes.int32 bytes).toInt)
  | .int64 => some (8, fun bytes => .number (Bytes.uint64 bytes).toInt64.toInt)
  | .rest => some (left, .bytes)
  | _ => none

namespace Reader

variable {text : Bytes} {count : Nat} {reader : Reader} {request : Request} {tell : Bytes → Value}

/-- A request that reads does so and nothing else. -/
theorem perform_of_reading? (length : reader.length = .ok text.length)
    (reads : request.reading? (text.length - reader.position) = some (count, tell)) :
    perform request reader = (Reader.read count >>= fun bytes => pure (tell bytes)) reader := by
  cases request with
  | read => cases reads; rfl
  | uint8 => cases reads; simp only [perform, uint8, bind_assoc, pure_bind]
  | int32 => cases reads; simp only [perform, int32, bind_assoc, pure_bind]
  | int64 => cases reads; simp only [perform, int64, bind_assoc, pure_bind]
  | rest =>
    cases reads
    have left : getLeft reader = (.ok (text.length - reader.position), reader) := by
      rw [getLeft, length]
      rfl
    have run : Reader.rest reader = Reader.read (text.length - reader.position) reader := by
      rw [Reader.rest, bind_apply, left]
    show (Reader.rest >>= fun bytes => pure (Value.bytes bytes)) reader = _
    rw [bind_apply, bind_apply, run]
  | length | position | seek | skip | reset | isEmpty | fragment | patch | apply => cases reads

/-- A request that reads something is answered with the bytes of the text at the position. -/
theorem Has.answer (has : Has text reader) (some : 0 < count)
    (reads : request.reading? (text.length - reader.position) = .some (count, tell)) {value : Value}
    (told : (reader.answer request).1 = .ok value) :
    reader.position + count ≤ text.length ∧
      value = tell ((text.drop reader.position).take count) ∧
        (reader.answer request).2.position = reader.position + count := by
  have run : reader.answer request =
      (Reader.read count >>= fun bytes => pure (tell bytes)) reader :=
    perform_of_reading? has.length_eq reads
  rw [run, bind_apply] at told ⊢
  have read : ∀ bytes, (Reader.read count reader).1 = .ok bytes → _ := fun _ => has.read some
  generalize Reader.read count reader = run at told read ⊢
  obtain ⟨result, moved⟩ := run
  cases result with
  | error fault => cases told
  | ok bytes =>
    obtain ⟨inside, rfl, behind⟩ := read bytes rfl
    exact ⟨inside, (Except.ok.inj told).symm, behind⟩

end Reader

/-! ## Inflaters -/

variable {bytes text : Bytes}

theorem Inflater.at_ofBytes (decoded : Zlib.Stream.decode bytes = ⟨text.toArray, .complete⟩) :
    Reader.At text 0 (.inflating (.ofBytes bytes)) := by
  rw [Inflater.ofBytes, decoded]
  exact .inflating (Nat.zero_le _)

/-- **An inflater shows exactly what its stream decodes to.** As long as no request has failed, the
next one succeeds exactly if it does on a buffer of the decoded bytes that was asked the same, and
then with the same answer and at the same position. And whatever has been asked, also if it failed,
a request that reads something and succeeds is answered with the bytes at the position that was
reported, and leaves the inflater behind them. -/
theorem Inflater.shows_decoded
    (decoded : Zlib.Stream.decode bytes = ⟨text.toArray, .complete⟩) (past : List Request)
    (request : Request) :
    let inflating := (Reader.inflating (.ofBytes bytes)).history past
    let plain := (Reader.ofBytes text).history past
    let next := inflating.2.answer request
    let next' := plain.2.answer request
    ((∀ answer ∈ inflating.1, ∃ value, answer = .ok value) →
      inflating.1 = plain.1 ∧ inflating.2.position = plain.2.position ∧
        ∀ value, (next.1 = .ok value ↔ next'.1 = .ok value) ∧
          (next.1 = .ok value → next.2.position = next'.2.position)) ∧
    ∀ count tell value,
      request.reading? (text.length - inflating.2.position) = some (count, tell) → 0 < count →
        next.1 = .ok value →
          inflating.2.position + count ≤ text.length ∧
            value = tell ((text.drop inflating.2.position).take count) ∧
              next.2.position = inflating.2.position + count := by
  intro inflating plain next next'
  have start := at_ofBytes decoded
  refine ⟨fun fine => ?_, fun count tell value reads some told => ?_⟩
  · obtain ⟨same, position, left, right⟩ := start.history (Reader.at_ofBytes text) past fine
    have agree := Reader.uniform_perform request left right
    refine ⟨same, left.position_eq_position right, fun value => ⟨agree.ok_iff value, ?_⟩⟩
    intro told
    obtain ⟨_, left, right⟩ := agree.at_of_ok told
    exact left.position_eq_position right
  · exact (start.has.history past).answer some reads told

/-- A stream of one stored block. -/
def storedStream : Bytes := [0x78, 1, 1, 3, 0, 0xfc, 0xff, 1, 2, 3, 0, 13, 0, 7]

set_option maxRecDepth 4000 in
theorem decode_storedStream :
    Zlib.Stream.decode storedStream = ⟨#[1, 2, 3], .complete⟩ := by cbv

/-- An inflater that is read past its end fails to read on, but is right again when it was put
back. -/
theorem shows_decoded_storedStream :
    let inflating := Reader.inflating (.ofBytes storedStream)
    (inflating.history [.read 1, .int32]).1 = [.ok (.bytes [1]), .error .inflatedEnd] ∧
      (((inflating.history [.read 1]).2.answer .rest).1 = .ok (.bytes [2, 3]) ↔
        (((Reader.ofBytes [1, 2, 3]).history [.read 1]).2.answer .rest).1 = .ok (.bytes [2, 3])) ∧
      (((inflating.history [.read 1, .int32, .reset]).2.answer (.read 2)).2.position = 2) := by
  have fine : ∀ answer ∈ ((Reader.inflating (.ofBytes storedStream)).history [.read 1]).1,
      ∃ value, answer = .ok value := by
    have whole : ((Reader.inflating (.ofBytes storedStream)).history [.read 1]).1 =
      [.ok (.bytes [1])] := by cbv
    rw [whole]
    exact fun answer member => ⟨_, List.mem_singleton.1 member⟩
  have start : ((Reader.inflating (.ofBytes storedStream)).history
      [.read 1, .int32, .reset]).2.position = 0 := by cbv
  have told : (((Reader.inflating (.ofBytes storedStream)).history
      [.read 1, .int32, .reset]).2.answer (.read 2)).1 = .ok (.bytes [1, 2]) := by cbv
  obtain ⟨-, -, behind⟩ := (Inflater.shows_decoded decode_storedStream [.read 1, .int32, .reset]
    (.read 2)).2 2 .bytes _ rfl (by decide) told
  have next := ((Inflater.shows_decoded decode_storedStream [.read 1] .rest).1 fine).2.2
    (.bytes [2, 3])
  rw [start] at behind
  exact ⟨by cbv, next.1, behind⟩

end RevisionLog
