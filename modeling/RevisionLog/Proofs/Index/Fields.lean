import RevisionLog.Log
import RevisionLog.Proofs.Bytes
import RevisionLog.Proofs.Outcome

/-!
# Fields of an index

A buffer over a whole file with the cursor at some position (`Buffer.whole`) reads the fields at
that position. Each primitive action succeeds exactly if what it reads lies inside the file, and
says what it read and where it left the cursor (`Buffer.int32_whole` and the like). Reading a record
is the sequence of these, so a record is found at a place of the file exactly if there is room for
it and the length of its chunk is not negative (`Record.readAt_whole`).
-/

namespace RevisionLog

namespace Buffer

/-- A buffer of a whole byte string with the cursor at a position. -/
def whole (bytes : Bytes) (position : Nat) : Buffer := { ofBytes bytes with position }

theorem ofBytes_eq_whole (bytes : Bytes) : ofBytes bytes = whole bytes 0 := rfl

@[simp] theorem length_whole (bytes : Bytes) (position : Nat) :
    (whole bytes position).length = bytes.length := rfl

@[simp] theorem position_whole (bytes : Bytes) (position : Nat) :
    (whole bytes position).position = position := rfl

@[simp] theorem span_whole (bytes : Bytes) (position offset count : Nat) :
    (whole bytes position).span offset count = (bytes.drop offset).take count := by
  rw [span_eq, whole, ofBytes, Nat.zero_add, List.toList_toArray]

/-- Actions run one after another. -/
theorem bind_eq_ok {α β : Type} {action : Action α} {next : α → Action β} {buffer after : Buffer}
    {result : β} :
    (action >>= next) buffer = .ok (result, after) ↔
      ∃ value between, action buffer = .ok (value, between) ∧
        next value between = .ok (result, after) := by
  refine Outcome.bind_eq_ok.trans ⟨?_, ?_⟩
  · rintro ⟨⟨value, between⟩, first, second⟩
    exact ⟨value, between, first, second⟩
  · rintro ⟨value, between, first, second⟩
    exact ⟨(value, between), first, second⟩

theorem pure_eq_ok {α : Type} {value result : α} {buffer after : Buffer} :
    (pure value : Action α) buffer = .ok (result, after) ↔ result = value ∧ after = buffer := by
  show Except.ok (value, buffer) = Except.ok (result, after) ↔ _
  rw [Except.ok.injEq, Prod.mk.injEq, eq_comm, @eq_comm _ buffer]

theorem throw_ne_ok {α : Type} {fault : Fault} {buffer after : Buffer} {result : α} :
    (throw fault : Action α) buffer ≠ .ok (result, after) := nofun

/-- A computation that does not use the buffer, and what follows it. -/
theorem liftM_bind_eq_ok {α β : Type} {found : Except Fault α} {next : α → Action β}
    {buffer after : Buffer} {result : β} :
    ((liftM found : Action α) >>= next) buffer = .ok (result, after) ↔
      ∃ value, found = .ok value ∧ next value buffer = .ok (result, after) := by
  cases found with
  | error fault => exact ⟨fun run => (nomatch run), fun ⟨_, run, _⟩ => (nomatch run)⟩
  | ok value =>
    refine ⟨fun run => ⟨value, rfl, run⟩, ?_⟩
    rintro ⟨_, same, run⟩
    cases same
    exact run

variable {bytes value : Bytes} {position count : Nat} {after : Buffer}

/-- Running on from an action of which it is known when it succeeds, and with what. -/
theorem bind_iff_of {α β : Type} {action : Action α} {next : α → Action β} {buffer between : Buffer}
    {value : α} {inside : Prop}
    (first : ∀ {found moved}, action buffer = .ok (found, moved) ↔
      inside ∧ found = value ∧ moved = between)
    {result : β} {after : Buffer} :
    (action >>= next) buffer = .ok (result, after) ↔
      inside ∧ next value between = .ok (result, after) := by
  rw [bind_eq_ok]
  refine ⟨?_, ?_⟩
  · rintro ⟨found, moved, run, rest⟩
    obtain ⟨there, rfl, rfl⟩ := first.1 run
    exact ⟨there, rest⟩
  · rintro ⟨there, rest⟩
    exact ⟨value, between, first.2 ⟨there, rfl, rfl⟩, rest⟩

theorem read_whole (some : 0 < count) :
    read count (whole bytes position) = .ok (value, after) ↔
      position + count ≤ bytes.length ∧ value = (bytes.drop position).take count ∧
        after = whole bytes (position + count) := by
  by_cases inside : position + count ≤ bytes.length
  · have enough : count ≤ (whole bytes position).left := by
      rw [left, length_whole, position_whole]
      omega
    rw [read_of_le enough, span_whole, Except.ok.injEq, Prod.mk.injEq, eq_comm, @eq_comm _ _ after]
    exact ⟨fun h => ⟨inside, h⟩, fun h => h.2⟩
  · have short : (whole bytes position).left < count := by
      rw [left, length_whole, position_whole]
      omega
    rw [read_of_lt short]
    refine ⟨fun run => ?_, fun h => absurd h.1 inside⟩
    cases run

theorem int32_whole {word : Int32} :
    int32 (whole bytes position) = .ok (word, after) ↔
      position + 4 ≤ bytes.length ∧ word = bytes.word position ∧
        after = whole bytes (position + 4) := by
  rw [int32, bind_iff_of (read_whole (by decide : 0 < 4)), pure_eq_ok]
  rfl

theorem uint64_whole {long : UInt64} :
    uint64 (whole bytes position) = .ok (long, after) ↔
      position + 8 ≤ bytes.length ∧ long = bytes.long position ∧
        after = whole bytes (position + 8) := by
  rw [uint64, bind_iff_of (read_whole (by decide : 0 < 8)), pure_eq_ok]
  rfl

theorem skip_whole {done : Unit} :
    skip count (whole bytes position) = .ok (done, after) ↔
      position + count ≤ bytes.length ∧ done = () ∧ after = whole bytes (position + count) := by
  by_cases inside : position + count ≤ bytes.length
  · rw [skip_of_le (by rwa [position_whole, length_whole]), Except.ok.injEq, Prod.mk.injEq,
      @eq_comm _ _ after]
    exact ⟨fun h => ⟨inside, h⟩, fun h => h.2⟩
  · rw [skip_of_lt (by rw [position_whole, length_whole]; omega)]
    refine ⟨fun run => ?_, fun h => absurd h.1 inside⟩
    cases run

/-- An action at a position of a file. -/
theorem readAt_whole {α : Type} {action : Action α} {result : α} {cursor : Nat} :
    (whole bytes cursor).readAt position action = .ok result ↔
      position ≤ bytes.length ∧ ∃ after, action (whole bytes position) = .ok (result, after) := by
  rw [readAt, Outcome.bind_eq_ok]
  by_cases inside : position ≤ bytes.length
  · rw [seek_of_le (by rwa [length_whole])]
    refine ⟨?_, ?_⟩
    · rintro ⟨_, sought, run⟩
      cases sought
      obtain ⟨⟨_, after⟩, run, same⟩ := Outcome.bind_eq_ok.1 run
      cases same
      exact ⟨inside, after, run⟩
    · rintro ⟨-, after, run⟩
      exact ⟨_, rfl, Outcome.bind_eq_ok.2 ⟨_, run, rfl⟩⟩
  · rw [seek_of_lt (by rw [length_whole]; omega)]
    refine ⟨?_, fun h => absurd h.1 inside⟩
    rintro ⟨_, sought, -⟩
    cases sought

end Buffer

namespace Record

/-- The record of a revision that the bytes from a place on stand for. -/
def ofIndex (bytes : Bytes) (place revision : Nat) : Record where
  revision
  offset := if revision = 0 then 0 else (bytes.long place).toNat / 65536
  flags := ⟨(bytes.long place).toUInt16⟩
  chunkLength := bytes.word (place + 8)
  textLength := bytes.word (place + 12)
  base := bytes.word (place + 16)
  link := bytes.word (place + 20)
  parent1 := bytes.word (place + 24)
  parent2 := bytes.word (place + 28)
  node := (NodeId.ofBytes ((bytes.drop (place + 32)).take 20)).toOption.getD .null

variable {bytes : Bytes} {place revision : Nat} {record : Record} {after : Buffer}

theorem read_whole :
    Record.read revision (Buffer.whole bytes place) = .ok (record, after) ↔
      place + size ≤ bytes.length ∧ 0 ≤ bytes.word (place + 8) ∧
        record = ofIndex bytes place revision ∧ after = Buffer.whole bytes (place + size) := by
  rw [Record.read, Buffer.bind_iff_of Buffer.uint64_whole]
  simp only [Buffer.bind_iff_of Buffer.int32_whole, Buffer.bind_iff_of Buffer.skip_whole,
    Buffer.bind_iff_of (Buffer.read_whole (by decide : 0 < 20)), Nat.add_assoc, Nat.reduceAdd]
  refine ⟨?_, ?_⟩
  · rintro ⟨-, -, -, -, -, -, -, -, inside, last⟩
    split at last
    · exact absurd last Buffer.throw_ne_ok
    · rename_i length
      obtain ⟨rfl, rfl⟩ := Buffer.pure_eq_ok.1 last
      exact ⟨inside, Int32.not_lt.1 length, rfl, rfl⟩
  · rintro ⟨inside, length, rfl, rfl⟩
    have room : place + 64 ≤ bytes.length := inside
    refine ⟨by omega, by omega, by omega, by omega, by omega, by omega, by omega, by omega, room, ?_⟩
    rw [if_neg (Int32.not_lt.2 length)]
    rfl

/-- **A record is found where there is room for it**, unless the length of its chunk is negative. -/
theorem readAt_whole {cursor : Nat} :
    (Buffer.whole bytes cursor).readAt place (Record.read revision) = .ok record ↔
      place + size ≤ bytes.length ∧ 0 ≤ bytes.word (place + 8) ∧
        record = ofIndex bytes place revision := by
  rw [Buffer.readAt_whole]
  simp only [read_whole]
  refine ⟨?_, ?_⟩
  · rintro ⟨-, _, inside, length, found, -⟩
    exact ⟨inside, length, found⟩
  · rintro ⟨inside, length, found⟩
    exact ⟨Nat.le_trans (Nat.le_add_right _ _) inside, _, inside, length, found, rfl⟩

end Record

end RevisionLog
