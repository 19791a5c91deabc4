import RevisionLog.Inflater

/-!
# Readers

A reader is what stored content is read through: a buffer, or an inflater over one. Operations on
readers are `Reader.Action`s. They return the reader even if they fail, since a failing inflater
moves. Every action of this library is built from a few primitive ones, and none of them moves a
reader back unless it seeks (`Reader.Advances`), so loops over the content of a reader end.
-/

namespace RevisionLog

/-- A buffer, or the decompressed view of one. -/
inductive Reader
  | plain (buffer : Buffer)
  | inflating (inflater : Inflater)
  deriving DecidableEq

namespace Reader

/-- A reader of a byte string. -/
def ofBytes (bytes : Bytes) : Reader := .plain (.ofBytes bytes)

/-- The position of the cursor. -/
def position : Reader → Nat
  | plain buffer => buffer.position
  | inflating inflater => inflater.position

/-- The number of bytes that the reader shows, unless its stream is damaged. -/
def length : Reader → Except Fault Nat
  | plain buffer => .ok buffer.length
  | inflating inflater => inflater.length

/-- An operation on a reader, which may change it even if it fails. -/
abbrev Action (α : Type) := ExceptT Fault (StateM Reader) α

/-- Actions run one after another, each on the reader that the one before it left. -/
theorem bind_apply {α β : Type} (action : Action α) (next : α → Action β) (reader : Reader) :
    (action >>= next) reader = match action reader with
      | (.ok value, moved) => next value moved
      | (.error fault, moved) => (.error fault, moved) := by
  have unfolded : (action >>= next) reader = ExceptT.bindCont next (action reader).1
    (action reader).2 := rfl
  rw [unfolded]
  rcases action reader with ⟨_ | _, _⟩ <;> rfl

/-- A computation that does not use the reader leaves it alone. -/
theorem liftM_apply {α : Type} (result : Except Fault α) (reader : Reader) :
    (liftM result : Action α) reader = (result, reader) := by
  cases result <;> rfl

/-- Runs an operation on buffers or one on inflaters, whichever applies. -/
def choose {α : Type} (onBuffer : Buffer.Action α) (onInflater : Inflater.Action α) : Action α
  | plain buffer =>
    match onBuffer buffer with
    | .ok (value, moved) => (.ok value, plain moved)
    | .error fault => (.error fault, plain buffer)
  | inflating inflater =>
    let (result, moved) := onInflater inflater
    (result, inflating moved)

theorem choose_plain_ok {α : Type} {onBuffer : Buffer.Action α} {onInflater : Inflater.Action α}
    {buffer moved : Buffer} {value : α} (h : onBuffer buffer = .ok (value, moved)) :
    choose onBuffer onInflater (plain buffer) = (.ok value, plain moved) := by
  simp only [choose, h]

theorem choose_plain_error {α : Type} {onBuffer : Buffer.Action α} {onInflater : Inflater.Action α}
    {buffer : Buffer} {fault : Fault} (h : onBuffer buffer = .error fault) :
    choose onBuffer onInflater (plain buffer) = (.error fault, plain buffer) := by
  simp only [choose, h]

theorem choose_inflating {α : Type} {onBuffer : Buffer.Action α} {onInflater : Inflater.Action α}
    {inflater moved : Inflater} {result : Except Fault α} (h : onInflater inflater = (result, moved)) :
    choose onBuffer onInflater (inflating inflater) = (result, inflating moved) := by
  simp only [choose, h]

/-- Moves the cursor to `target`. -/
def seek (target : Nat) : Action Unit := choose (Buffer.seek target) (Inflater.seek target)

/-- Moves the cursor forward by `count` bytes. -/
def skip (count : Nat) : Action Unit := choose (Buffer.skip count) (Inflater.skip count)

/-- Moves the cursor to the start. -/
def reset : Action Unit := seek 0

/-- Reads exactly `count` bytes. -/
def read (count : Nat) : Action Bytes := choose (Buffer.read count) (Inflater.read count)

/-- The number of bytes the reader shows. -/
def getLength : Action Nat := fun reader => (reader.length, reader)

/-- The number of bytes from the cursor to the end. -/
def getLeft : Action Nat := fun reader => ((reader.length).map (· - reader.position), reader)

/-- Whether every byte has been read. -/
def isEmpty : Action Bool := fun reader =>
  ((reader.length).map fun length => decide (length ≤ reader.position), reader)

/-- Reads a byte. -/
def uint8 : Action UInt8 := do return UInt8.ofNat (Bytes.toNat (← read 1))

/-- Reads a signed 32-bit number. -/
def int32 : Action Int32 := do return Bytes.int32 (← read 4)

/-- Reads a signed 64-bit number. -/
def int64 : Action Int64 := do return (Bytes.uint64 (← read 8)).toInt64

/-- Reads everything from the cursor to the end. -/
def rest : Action Bytes := do read (← getLeft)

/-! ## Progress -/

/-- The number of bytes behind the cursor, counting only decoded ones of a damaged stream. -/
def left : Reader → Nat
  | plain buffer => buffer.left
  | inflating inflater => inflater.stream.output.size - inflater.position

/-- Whenever the action succeeds, it leaves at most what there was less `count` bytes. -/
def Advances {α : Type} (count : Nat) (action : Action α) : Prop :=
  ∀ ⦃reader value after⦄, action reader = (.ok value, after) → after.left ≤ reader.left - count

theorem advances_pure {α : Type} (value : α) : Advances 0 (pure value) := by
  intro reader _ after h
  obtain ⟨-, rfl⟩ := Prod.mk.inj h
  exact Nat.le_refl _

theorem advances_throw {α : Type} (count : Nat) (fault : Fault) :
    Advances count (throw fault : Action α) := by
  intro reader value after h
  cases (Prod.mk.inj h).1

theorem Advances.bind {α β : Type} {m n : Nat} {action : Action α} {next : α → Action β}
    (first : Advances m action) (second : ∀ value, Advances n (next value)) :
    Advances (m + n) (action >>= next) := by
  intro reader value after h
  rw [bind_apply] at h
  split at h
  · rename_i run
    have := first run
    have := second _ h
    omega
  · cases (Prod.mk.inj h).1

theorem Advances.mono {α : Type} {m n : Nat} {action : Action α} (h : Advances n action)
    (le : m ≤ n) : Advances m action := by
  intro reader value after run
  have := h run
  omega

theorem advances_read (count : Nat) : Advances count (read count) := by
  intro reader bytes after h
  cases reader with
  | plain buffer =>
    simp only [read, choose] at h
    split at h
    · rename_i run
      obtain ⟨-, rfl⟩ := Prod.mk.inj h
      obtain ⟨-, -, rfl⟩ := Buffer.read_eq_ok run
      simp only [left, Buffer.left]
      omega
    · cases (Prod.mk.inj h).1
  | inflating inflater =>
    by_cases fits : count ≤ inflater.available
    · simp only [read, choose, Inflater.read, if_pos fits] at h
      obtain ⟨-, rfl⟩ := Prod.mk.inj h
      simp only [left]
      omega
    · simp only [read, choose, Inflater.read, if_neg fits] at h
      cases (Prod.mk.inj h).1

theorem advances_int32 : Advances 4 int32 :=
  (advances_read 4).bind fun _ => advances_pure _

theorem advances_getLeft : Advances 0 getLeft := by
  intro reader value after h
  obtain ⟨-, rfl⟩ := Prod.mk.inj h
  exact Nat.le_refl _

/-- A reader that is not empty has bytes left. -/
theorem left_pos_of_isEmpty {reader after : Reader} (h : isEmpty reader = (.ok false, after)) :
    after = reader ∧ 0 < reader.left := by
  obtain ⟨answer, rfl⟩ := Prod.mk.inj h
  refine ⟨rfl, ?_⟩
  cases reader with
  | plain buffer =>
    have behind : ¬buffer.length ≤ buffer.position := of_decide_eq_false (Except.ok.inj answer)
    simp only [left, Buffer.left]
    omega
  | inflating inflater =>
    have behind : ¬inflater.stream.output.size ≤ inflater.position := by
      simp only [length, Inflater.length] at answer
      split at answer
      · exact of_decide_eq_false (Except.ok.inj answer)
      all_goals cases answer
    simp only [left]
    omega

end Reader

end RevisionLog
