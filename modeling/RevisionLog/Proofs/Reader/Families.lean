import Mathlib
import RevisionLog.Proofs.Reader.Inflating

/-!
# Families of buffers

Buffers are made from others as windows or copies, and each has a cursor of its own that is moved by
what is read through it. All buffers that come from one byte string are a family. Each of them lies
inside the bytes and has its cursor inside its window (`Buffer.Inside`), which every operation keeps
(`Buffer.inside_step`) and therefore every history (`Buffer.inside_run`, by induction on the
history). An operation on one buffer does not change the others (`Buffer.getElem?_step_of_ne`), and
if it fails it changes nothing (`Buffer.step_of_error`).
-/

namespace RevisionLog

/-- The requests that are answered in one step: they look, move the cursor or read once. -/
inductive Request.Single : Request → Prop
  | length : Single .length
  | position : Single .position
  | isEmpty : Single .isEmpty
  | seek (target : Nat) : Single (.seek target)
  | skip (count : Nat) : Single (.skip count)
  | reset : Single .reset
  | read (count : Nat) : Single (.read count)
  | uint8 : Single .uint8
  | int32 : Single .int32
  | int64 : Single .int64
  | rest : Single .rest

/-- Where a request puts the cursor that only moves it, from a position. -/
def Request.moving? (position : Nat) : Request → Option Nat
  | .seek target => some target
  | .skip count => some (position + count)
  | .reset => some 0
  | _ => none

namespace Buffer

/-! ## Families -/

/-- What can be done with a buffer. -/
inductive Operation
  /-- Makes a buffer of a part of the window. -/
  | window (offset count : Nat)
  /-- Makes a buffer of the whole window with a cursor at the same place. -/
  | clone
  /-- Reads `count` bytes or as many as there are. -/
  | readUpTo (count : Nat)
  | ask (request : Request) (single : request.Single)

/-- The answer of a buffer to a request, and the buffer after it. -/
def answer (buffer : Buffer) (request : Request) : Answer × Buffer :=
  match (Reader.plain buffer).answer request with
  | (answer, .plain moved) => (answer, moved)
  -- No request makes an inflater of a buffer.
  | (answer, .inflating _) => (answer, buffer)

/-- What an operation answers, the buffer after it, and the buffer that it makes. -/
def operate (buffer : Buffer) : Operation → Answer × Buffer × Option Buffer
  | .window offset count =>
    match buffer.window offset count with
    | .ok inner => (.ok .done, buffer, some inner)
    | .error fault => (.error fault, buffer, none)
  | .clone => (.ok .done, buffer, some buffer)
  | .readUpTo count => (.ok (.bytes (buffer.readUpTo count).1), (buffer.readUpTo count).2, none)
  | .ask request _ => ((buffer.answer request).1, (buffer.answer request).2, none)

/-- Does an operation with the buffer in a slot. A buffer that is made comes behind all others. -/
def step (family : List Buffer) (slot : Nat) (operation : Operation) :
    Option Answer × List Buffer :=
  match family[slot]? with
  | none => (none, family)
  | some buffer =>
    let (answer, moved, made) := buffer.operate operation
    (some answer, family.set slot moved ++ made.toList)

/-- The family after some operations, each on the buffer in a slot. -/
def run (family : List Buffer) (history : List (Nat × Operation)) : List Buffer :=
  history.foldl (fun family (slot, operation) => (step family slot operation).2) family

/-- How many bytes an operation reads where some are left, and what it makes of them. -/
def Operation.reading? (left : Nat) : Operation → Option (Nat × (Bytes → Value))
  | .readUpTo count => some (min count left, .bytes)
  | .ask request _ => request.reading? left
  | _ => none

/-- Where an operation puts the cursor that only moves it, from a position. -/
def Operation.moving? (position : Nat) : Operation → Option Nat
  | .ask request _ => request.moving? position
  | _ => none

/-! ## What holds of all buffers of a family -/

/-- The buffer is one of the bytes, its window lies inside them and its cursor inside the window. -/
structure Inside (bytes : Bytes) (buffer : Buffer) : Prop where
  shared : buffer.bytes = bytes.toArray
  window : buffer.start + buffer.length ≤ bytes.length
  cursor : buffer.position ≤ buffer.length

variable {bytes : Bytes} {buffer inner moved : Buffer} {offset count target slot : Nat}
  {request : Request} {family : List Buffer} {operation : Operation}

theorem inside_ofBytes (bytes : Bytes) : (ofBytes bytes).Inside bytes :=
  ⟨rfl, Nat.le_of_eq (Nat.zero_add _), Nat.zero_le _⟩

theorem Inside.fits (inside : buffer.Inside bytes) : buffer.Fits := by
  have window := inside.window
  rwa [Fits, inside.shared, List.size_toArray]

theorem Inside.move (inside : buffer.Inside bytes) (within : target ≤ buffer.length) :
    Inside bytes { buffer with position := target } :=
  ⟨inside.shared, inside.window, within⟩

theorem Inside.position_add_le (inside : buffer.Inside bytes) (enough : count ≤ buffer.left) :
    buffer.position + count ≤ buffer.length := by
  have cursor := inside.cursor
  rw [left] at enough
  omega

theorem Inside.of_window (inside : buffer.Inside bytes)
    (found : buffer.window offset count = .ok inner) : inner.Inside bytes := by
  obtain ⟨within, rfl⟩ := window_eq_ok found
  have window := inside.window
  refine ⟨inside.shared, ?_, Nat.zero_le _⟩
  show buffer.start + offset + count ≤ bytes.length
  omega

/-! ## Requests -/

theorem answer_of_perform {result : Answer}
    (run : Reader.perform request (.plain buffer) = (result, .plain moved)) :
    buffer.answer request = (result, moved) := by
  rw [answer, Reader.answer, run]

/-- A request that reads is answered with what is at the cursor, if there is enough. -/
theorem Inside.answer_of_reading? (inside : buffer.Inside bytes) {tell : Bytes → Value}
    (reads : request.reading? buffer.left = some (count, tell)) :
    buffer.answer request =
      if count ≤ buffer.left then
        (.ok (tell ((buffer.slice.drop buffer.position).take count)),
          { buffer with position := buffer.position + count })
      else (.error (.shortRead count buffer.position buffer.left), buffer) := by
  have length : (Reader.plain buffer).length = .ok buffer.slice.length :=
    congrArg Except.ok inside.fits.length_slice.symm
  have run : Reader.perform request (.plain buffer) =
      (Reader.read count >>= fun bytes => pure (tell bytes)) (.plain buffer) :=
    Reader.perform_of_reading? length (by rwa [inside.fits.length_slice])
  rw [Reader.bind_apply, Reader.read] at run
  split
  · rename_i enough
    rw [Reader.choose_plain_ok (read_of_le enough),
      span_eq_slice (inside.position_add_le enough)] at run
    exact answer_of_perform run
  · rename_i short
    rw [Reader.choose_plain_error (read_of_lt (Nat.lt_of_not_le short))] at run
    exact answer_of_perform run

/-- A request that moves the cursor of a buffer to a target inside the window does so. -/
theorem answer_of_choose {onBuffer : Action Unit} {onInflater : Inflater.Action Unit}
    (same : Reader.perform request = do Reader.choose onBuffer onInflater; return .done)
    (within : target ≤ buffer.length →
      onBuffer buffer = .ok ((), { buffer with position := target }))
    (beyond : buffer.length < target → ∃ fault, onBuffer buffer = .error fault) :
    (target ≤ buffer.length →
        buffer.answer request = (.ok .done, { buffer with position := target })) ∧
      (buffer.length < target → ∃ fault, buffer.answer request = (.error fault, buffer)) := by
  have run := congrFun same (.plain buffer)
  rw [Reader.bind_apply] at run
  refine ⟨fun le => answer_of_perform ?_, fun lt => ?_⟩
  · rw [run, Reader.choose_plain_ok (within le)]
    rfl
  · obtain ⟨fault, failed⟩ := beyond lt
    exact ⟨fault, answer_of_perform (by rw [run, Reader.choose_plain_error failed])⟩

/-- A request that moves the cursor does so, as far as to the end of the window. -/
theorem answer_of_moving? (moves : request.moving? buffer.position = some target) :
    (target ≤ buffer.length →
        buffer.answer request = (.ok .done, { buffer with position := target })) ∧
      (buffer.length < target → ∃ fault, buffer.answer request = (.error fault, buffer)) := by
  cases request with
  | seek target =>
    cases moves
    have same : Reader.perform (.seek target) = do
        Reader.choose (seek target) (Inflater.seek target); return Value.done := rfl
    exact answer_of_choose same seek_of_le fun beyond => ⟨_, seek_of_lt beyond⟩
  | reset =>
    cases moves
    have same : Reader.perform .reset = do
        Reader.choose (seek 0) (Inflater.seek 0); return Value.done := rfl
    exact answer_of_choose same seek_of_le fun beyond => ⟨_, seek_of_lt beyond⟩
  | skip count =>
    cases moves
    have same : Reader.perform (.skip count) = do
        Reader.choose (skip count) (Inflater.skip count); return Value.done := rfl
    exact answer_of_choose same skip_of_le fun beyond => ⟨_, skip_of_lt beyond⟩
  | length | position | isEmpty | read | uint8 | int32 | int64 | rest | fragment | patch | apply =>
    cases moves

/-- What becomes of a buffer: it fails and stays as it is, or it answers and has moved its cursor
inside the window at most. -/
def Settles (buffer : Buffer) (run : Answer × Buffer) : Prop :=
  (∃ fault, run = (.error fault, buffer)) ∨
    ∃ value target, target ≤ buffer.length ∧ run = (.ok value, { buffer with position := target })

theorem Inside.settles_of_reading? (inside : buffer.Inside bytes) {tell : Bytes → Value}
    (reads : request.reading? buffer.left = some (count, tell)) :
    buffer.Settles (buffer.answer request) := by
  rw [inside.answer_of_reading? reads]
  split
  · rename_i enough
    exact .inr ⟨_, _, inside.position_add_le enough, rfl⟩
  · exact .inl ⟨_, rfl⟩

theorem settles_of_moving? (moves : request.moving? buffer.position = some target) :
    buffer.Settles (buffer.answer request) := by
  obtain ⟨within, beyond⟩ := answer_of_moving? moves
  rcases Nat.lt_or_ge buffer.length target with lt | le
  · exact .inl (beyond lt)
  · exact .inr ⟨_, _, le, within le⟩

/-- A request that is answered in one step fails and changes nothing, or moves the cursor at
most. -/
theorem Inside.settles (inside : buffer.Inside bytes) (single : request.Single) :
    buffer.Settles (buffer.answer request) := by
  cases single with
  | length | position | isEmpty => exact .inr ⟨_, _, inside.cursor, rfl⟩
  | seek | skip | reset => exact settles_of_moving? rfl
  | read | uint8 | int32 | int64 | rest => exact inside.settles_of_reading? rfl

/-! ## Operations -/

theorem Inside.readUpTo (inside : buffer.Inside bytes) (count : Nat) :
    buffer.readUpTo count =
      ((buffer.slice.drop buffer.position).take (min count buffer.left),
        { buffer with position := buffer.position + min count buffer.left }) := by
  rw [Buffer.readUpTo, span_eq_slice (inside.position_add_le (Nat.min_le_right _ _))]

/-- An operation fails and changes nothing, or it moves the cursor inside the window at most and
makes nothing but a buffer that is inside the bytes, too. -/
theorem Inside.operate (inside : buffer.Inside bytes) (operation : Operation) :
    (∃ fault, buffer.operate operation = (.error fault, buffer, none)) ∨
      ∃ value target made, target ≤ buffer.length ∧ (∀ inner ∈ made, Inside bytes inner) ∧
        buffer.operate operation = (.ok value, { buffer with position := target }, made) := by
  cases operation with
  | window offset count =>
    cases found : buffer.window offset count with
    | error fault => exact .inl ⟨fault, by rw [Buffer.operate, found]⟩
    | ok inner =>
      refine .inr ⟨.done, buffer.position, some inner, inside.cursor, ?_, ?_⟩
      · intro other present
        obtain rfl := Option.mem_some_iff.1 present
        exact inside.of_window found
      · rw [Buffer.operate, found]
  | clone =>
    refine .inr ⟨.done, buffer.position, some buffer, inside.cursor, ?_, rfl⟩
    intro other present
    obtain rfl := Option.mem_some_iff.1 present
    exact inside
  | readUpTo count =>
    have within := inside.position_add_le (Nat.min_le_right count buffer.left)
    have run : buffer.operate (.readUpTo count) = (_, _, none) := rfl
    rw [inside.readUpTo] at run
    exact .inr ⟨_, _, none, within, nofun, run⟩
  | ask request single =>
    obtain ⟨fault, run⟩ | ⟨value, target, within, run⟩ := inside.settles single
    · exact .inl ⟨fault, by rw [Buffer.operate, run]⟩
    · exact .inr ⟨value, target, none, within, nofun, by rw [Buffer.operate, run]⟩

/-! ## Steps -/

theorem step_of_member (member : family[slot]? = some buffer) {result : Answer}
    {made : Option Buffer} (run : buffer.operate operation = (result, moved, made)) :
    step family slot operation = (some result, family.set slot moved ++ made.toList) := by
  simp only [step, member, run]

/-- An operation that makes no buffer leaves as many as there were. -/
theorem step_of_none (member : family[slot]? = some buffer) {result : Answer}
    (run : buffer.operate operation = (result, moved, none)) :
    step family slot operation = (some result, family.set slot moved) := by
  rw [step_of_member member run, Option.toList_none, List.append_nil]

theorem set_of_member (member : family[slot]? = some buffer) : family.set slot buffer = family := by
  obtain ⟨within, rfl⟩ := List.getElem?_eq_some_iff.1 member
  exact List.set_getElem_self within

/-- An operation that fails changes nothing. -/
theorem step_of_error (member : family[slot]? = some buffer) {fault : Fault}
    (run : buffer.operate operation = (.error fault, buffer, none)) :
    step family slot operation = (some (.error fault), family) := by
  rw [step_of_none member run, set_of_member member]

/-- An operation keeps all buffers of a family inside the bytes. -/
theorem inside_step (inside : ∀ buffer ∈ family, buffer.Inside bytes) (slot : Nat)
    (operation : Operation) : ∀ buffer ∈ (step family slot operation).2, buffer.Inside bytes := by
  cases member : family[slot]? with
  | none =>
    simp only [step, member]
    exact inside
  | some buffer =>
    have here := inside buffer (List.mem_of_getElem? member)
    obtain ⟨fault, run⟩ | ⟨value, target, made, within, made_inside, run⟩ := here.operate operation
    · rw [step_of_error member run]
      exact inside
    · rw [step_of_member member run]
      intro other present
      rcases List.mem_append.1 present with present | present
      · rcases List.mem_or_eq_of_mem_set present with present | rfl
        · exact inside other present
        · exact here.move within
      · exact made_inside other (Option.mem_toList.1 present)

/-- An operation leaves the buffers in the other slots alone. -/
theorem getElem?_step_of_ne {other : Nat} (apart : slot ≠ other)
    (member : family[other]? = some buffer) :
    (step family slot operation).2[other]? = some buffer := by
  cases found : family[slot]? with
  | none => simp only [step, found, member]
  | some operand =>
    simp only [step, found]
    have within := (List.getElem?_eq_some_iff.1 member).1
    rw [List.getElem?_append_left (by rwa [List.length_set]), List.getElem?_set_ne apart, member]

/-- An operation moves the cursor of its buffer inside the window at most. -/
theorem Inside.getElem?_step (inside : buffer.Inside bytes) (member : family[slot]? = some buffer)
    (operation : Operation) :
    ∃ target, target ≤ buffer.length ∧
      (step family slot operation).2[slot]? = some { buffer with position := target } := by
  obtain ⟨fault, run⟩ | ⟨value, target, made, within, -, run⟩ := inside.operate operation
  · rw [step_of_error member run]
    exact ⟨buffer.position, inside.cursor, member⟩
  · have bound := (List.getElem?_eq_some_iff.1 member).1
    refine ⟨target, within, ?_⟩
    rw [step_of_member member run, List.getElem?_append_left (by rwa [List.length_set]),
      List.getElem?_set_self bound]

/-- An operation that reads takes the bytes at the cursor, if there are enough. -/
theorem Inside.step_of_reading? (inside : buffer.Inside bytes)
    (member : family[slot]? = some buffer) {tell : Bytes → Value}
    (reads : operation.reading? buffer.left = some (count, tell)) :
    step family slot operation =
      if count ≤ buffer.left then
        (some (.ok (tell ((buffer.slice.drop buffer.position).take count))),
          family.set slot { buffer with position := buffer.position + count })
      else (some (.error (.shortRead count buffer.position buffer.left)), family) := by
  cases operation with
  | window | clone => cases reads
  | readUpTo count =>
    obtain ⟨rfl, rfl⟩ := Prod.mk.inj (Option.some.inj reads)
    have run : buffer.operate (.readUpTo count) = (_, _, none) := rfl
    rw [inside.readUpTo] at run
    rw [step_of_none member run, if_pos (Nat.min_le_right _ _)]
  | ask request single =>
    have run : buffer.operate (.ask request single) = (_, _, none) := rfl
    rw [inside.answer_of_reading? reads] at run
    split at run
    · rename_i enough
      rw [step_of_none member run, if_pos enough]
    · rename_i short
      rw [step_of_error member run, if_neg short]

/-- An operation that moves the cursor does so inside the window. -/
theorem step_of_moving? (member : family[slot]? = some buffer)
    (moves : operation.moving? buffer.position = some target) :
    (target ≤ buffer.length → step family slot operation =
      (some (.ok .done), family.set slot { buffer with position := target })) ∧
    (buffer.length < target → ∃ fault, step family slot operation =
      (some (.error fault), family)) := by
  cases operation with
  | window | clone | readUpTo => cases moves
  | ask request single =>
    obtain ⟨within, beyond⟩ := answer_of_moving? moves
    have run : buffer.operate (.ask request single) =
      ((buffer.answer request).1, (buffer.answer request).2, none) := rfl
    refine ⟨fun le => ?_, fun lt => ?_⟩
    · rw [within le] at run
      rw [step_of_none member run]
    · obtain ⟨fault, failed⟩ := beyond lt
      rw [failed] at run
      exact ⟨fault, step_of_error member run⟩

/-! ## Histories -/

theorem run_cons (operation : Operation) (history : List (Nat × Operation)) :
    run family ((slot, operation) :: history) = run (step family slot operation).2 history := rfl

/-- Whatever is done, all buffers of a family stay inside the bytes. -/
theorem inside_run (inside : ∀ buffer ∈ family, buffer.Inside bytes)
    (history : List (Nat × Operation)) : ∀ buffer ∈ run family history, buffer.Inside bytes := by
  induction history generalizing family with
  | nil => exact inside
  | cons entry history ih => exact ih (inside_step inside entry.1 entry.2)

/-- Whatever is done, a buffer keeps its window and moves its cursor inside it at most. -/
theorem Inside.getElem?_run (inside : buffer.Inside bytes) (member : family[slot]? = some buffer)
    (history : List (Nat × Operation)) :
    ∃ target, target ≤ buffer.length ∧
      (run family history)[slot]? = some { buffer with position := target } := by
  induction history generalizing family buffer with
  | nil => exact ⟨buffer.position, inside.cursor, member⟩
  | cons entry history ih =>
    obtain ⟨other, operation⟩ := entry
    rw [run_cons]
    rcases eq_or_ne other slot with rfl | apart
    · obtain ⟨target, within, here⟩ := inside.getElem?_step member operation
      obtain ⟨last, within, there⟩ := ih (inside.move within) here
      exact ⟨last, within, there⟩
    · exact ih inside (getElem?_step_of_ne apart member)

/-- As long as nothing is done with a buffer itself, it stays as it is. -/
theorem getElem?_run_of_ne (member : family[slot]? = some buffer)
    (history : List (Nat × Operation)) (apart : ∀ entry ∈ history, entry.1 ≠ slot) :
    (run family history)[slot]? = some buffer := by
  induction history generalizing family with
  | nil => exact member
  | cons entry history ih =>
    obtain ⟨first, later⟩ := List.forall_mem_cons.1 apart
    exact ih (getElem?_step_of_ne first member) later

end Buffer

end RevisionLog
