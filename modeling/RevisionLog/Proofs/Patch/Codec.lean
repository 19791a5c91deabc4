import Mathlib
import RevisionLog.Proofs.Reader.Inflating

/-!
# The stored form of patches

`Patch.Turns` follows the loop that decodes a patch: one constructor for a turn, which decodes a
fragment, and one for each way to end. A turn passes over exactly the bytes that the decoded
fragment is written as (`Fragment.read_eq_ok`), and so, by induction on the turns, what has been
decoded is always written in the bytes that have been passed over (`Patch.Turns.written`), also
where the loop fails later. As a fragment takes up twelve bytes at least, the loop ends soon.

Together with `Patch.read_write` this makes reading and writing inverse: from a reader of some bytes
a patch is decoded exactly if it can be stored and these bytes are its stored form
(`Patch.read_eq_ok_iff_write`).
-/

namespace RevisionLog

theorem Bytes.ofInt32_word {bytes : Bytes} {position : Nat} (inside : position + 4 ≤ bytes.length) :
    ofInt32 (bytes.word position) = (bytes.drop position).take 4 := by
  rw [word, ofInt32_int32]
  simp only [List.length_take, List.length_drop]
  omega

namespace Reader

/-- The reader has just been made of a text: it is a buffer of it, or an inflater of a stream that
decodes to it. -/
inductive Opened (text : Bytes) : Reader → Prop
  | plain {buffer : Buffer} (fits : buffer.Fits) (slice : buffer.slice = text)
      (start : buffer.position = 0) : Opened text (.plain buffer)
  | inflating {stored : Bytes} (decoded : Zlib.Stream.decode stored = ⟨text.toArray, .complete⟩) :
      Opened text (.inflating (.ofBytes stored))

variable {text : Bytes} {position : Nat} {reader moved : Reader}

theorem Opened.start (opened : Opened text reader) : At text 0 reader := by
  cases opened with
  | plain fits slice start => exact .plain fits slice start (Nat.zero_le _)
  | inflating decoded => exact Inflater.at_ofBytes decoded

theorem opened_ofBytes (text : Bytes) : Opened text (.ofBytes text) :=
  .plain (Buffer.fits_ofBytes text) (Buffer.slice_ofBytes text) rfl

/-! ## What a successful action has done -/

theorem bind_eq_ok {α β : Type} {action : Action α} {next : α → Action β} {result : β} :
    (action >>= next) reader = (.ok result, moved) ↔
      ∃ value between, action reader = (.ok value, between) ∧
        next value between = (.ok result, moved) := by
  rw [bind_apply]
  rcases action reader with ⟨fault | value, between⟩
  · exact ⟨nofun, nofun⟩
  · refine ⟨fun run => ⟨value, between, rfl, run⟩, ?_⟩
    rintro ⟨_, _, same, run⟩
    cases same
    exact run

theorem At.read_eq_ok (h : At text position reader) {count : Nat} {bytes : Bytes}
    (run : Reader.read count reader = (.ok bytes, moved)) :
    position + count ≤ text.length ∧ bytes = (text.drop position).take count ∧
      At text (position + count) moved := by
  by_cases inside : position + count ≤ text.length
  · obtain ⟨there, found, behind⟩ := h.read count inside
    obtain ⟨same, rfl⟩ := Prod.mk.inj (run.symm.trans found)
    exact ⟨inside, Except.ok.inj same, behind⟩
  · obtain ⟨fault, there, failed⟩ := h.read_error (Nat.lt_of_not_le inside)
    rw [failed] at run
    cases run

theorem At.int32_eq_ok (h : At text position reader) {n : Int32}
    (run : Reader.int32 reader = (.ok n, moved)) :
    position + 4 ≤ text.length ∧ n = text.word position ∧ At text (position + 4) moved := by
  obtain ⟨bytes, between, read, same⟩ := bind_eq_ok.1 run
  obtain ⟨inside, rfl, behind⟩ := h.read_eq_ok read
  cases same
  exact ⟨inside, rfl, behind⟩

end Reader

open Reader (At Opened)

variable {text : Bytes} {position : Nat} {reader moved : Reader} {fragment : Fragment}
  {patch : Patch}

/-! ## A fragment -/

/-- Three words and as many bytes as the last one says are the stored form of a fragment. -/
theorem Fragment.write_of_words {count : Nat} (length : (text.word (position + 8)).toInt = count)
    (room : position + 12 + count ≤ text.length) :
    write ⟨text.word position, text.word (position + 4), (text.drop (position + 12)).take count⟩ =
      (text.drop position).take (12 + count) := by
  have size : ((text.drop (position + 12)).take count).length = count := by
    simp only [List.length_take, List.length_drop]
    omega
  have number : Int32.ofNat count = text.word (position + 8) := by
    rw [← Int32.ofInt_eq_ofNat, ← length, Int32.ofInt_toInt]
  have cut : (text.drop position).take (12 + count) =
      (text.drop position).take 4 ++ (text.drop (position + 4)).take 4 ++
        (text.drop (position + 8)).take 4 ++ (text.drop (position + 12)).take count := by
    rw [show 12 + count = 4 + 4 + 4 + count from rfl]
    simp only [List.take_add, List.drop_drop]
  rw [write, Fragment.length, size, number, cut, Bytes.ofInt32_word (by omega),
    Bytes.ofInt32_word (by omega), Bytes.ofInt32_word (by omega)]

/-- **A fragment is decoded from its stored form**, and the reader stands behind that. -/
theorem Fragment.read_eq_ok (h : At text position reader)
    (run : Fragment.read reader = (.ok fragment, moved)) :
    text.drop position = fragment.write ++ text.drop (position + fragment.write.length) ∧
      At text (position + fragment.write.length) moved := by
  obtain ⟨start, second, first, run⟩ := Reader.bind_eq_ok.1 run
  obtain ⟨-, rfl, h⟩ := h.int32_eq_ok first
  obtain ⟨stop, third, next, run⟩ := Reader.bind_eq_ok.1 run
  obtain ⟨-, rfl, h⟩ := h.int32_eq_ok next
  obtain ⟨length, fourth, last, run⟩ := Reader.bind_eq_ok.1 run
  obtain ⟨-, rfl, h⟩ := h.int32_eq_ok last
  split at run
  · cases run
  rename_i nonneg
  obtain ⟨left, fifth, told, run⟩ := Reader.bind_eq_ok.1 run
  obtain ⟨-, rfl⟩ := Prod.mk.inj told
  split at run
  · cases run
  obtain ⟨data, last, read, same⟩ := Reader.bind_eq_ok.1 run
  obtain ⟨room, rfl, h⟩ := h.read_eq_ok read
  cases same
  obtain ⟨count, length⟩ : ∃ count : Nat, (text.word (position + 8)).toInt = count :=
    Int.eq_ofNat_of_zero_le (by simpa [Int32.lt_iff_toInt_lt] using nonneg)
  simp only [Nat.add_assoc, Nat.reduceAdd, length, Int.toNat_natCast] at room h ⊢
  rw [Fragment.write_of_words length (by omega)]
  have size : ((text.drop position).take (12 + count)).length = 12 + count := by
    simp only [List.length_take, List.length_drop]
    omega
  rw [size, ← List.drop_drop, List.take_append_drop]
  exact ⟨rfl, by rwa [← Nat.add_assoc] at h ⊢⟩

/-! ## The turns of the loop -/

namespace Patch

/-- What the loop that decodes a patch does from a reader on: the fragments that it decodes, how it
ends, and the reader that it leaves. -/
inductive Turns : Reader → Patch → Except Fault Unit → Reader → Prop
  | done {reader moved : Reader} (empty : Reader.isEmpty reader = (.ok true, moved)) :
      Turns reader [] (.ok ()) moved
  | lost {reader moved : Reader} {fault : Fault}
      (damaged : Reader.isEmpty reader = (.error fault, moved)) :
      Turns reader [] (.error fault) moved
  | broken {reader between moved : Reader} {fault : Fault}
      (more : Reader.isEmpty reader = (.ok false, between))
      (failed : Fragment.read between = (.error fault, moved)) :
      Turns reader [] (.error fault) moved
  | turn {reader between after moved : Reader} {fragment : Fragment} {patch : Patch}
      {ending : Except Fault Unit} (more : Reader.isEmpty reader = (.ok false, between))
      (first : Fragment.read between = (.ok fragment, after))
      (rest : Turns after patch ending moved) : Turns reader (fragment :: patch) ending moved

variable {ending : Except Fault Unit}

/-- The loop comes to an end from any reader. By induction on the run of the decoder. -/
theorem turns_read (reader : Reader) : ∃ patch ending moved, Turns reader patch ending moved := by
  fun_induction Patch.read reader with
  | case1 reader fault moved empty => exact ⟨_, _, _, .lost empty⟩
  | case2 reader moved empty => exact ⟨_, _, _, .done empty⟩
  | case3 reader between more fault moved failed => exact ⟨_, _, _, .broken more failed⟩
  | case4 reader between more fragment after first fragments last rest ih =>
    obtain ⟨patch, ending, moved, turns⟩ := ih
    exact ⟨_, _, _, .turn more first turns⟩

/-- What the decoder returns is told by its turns. -/
theorem Turns.read_eq (turns : Turns reader patch ending moved) :
    Patch.read reader = (ending.map fun _ => patch, moved) := by
  induction turns with
  | done empty => rw [Patch.read, empty]; rfl
  | lost damaged => rw [Patch.read, damaged]; rfl
  | broken more failed =>
    rw [Patch.read, more]
    dsimp only
    rw [failed]
    rfl
  | @turn _ _ _ _ _ _ ending more first rest ih =>
    rw [Patch.read, more]
    dsimp only
    rw [first]
    dsimp only
    rw [ih]
    cases ending <;> rfl

/-- **Whatever has been decoded is written in what has been passed over.** By induction on the
turns, each of which passes over the stored form of a fragment. -/
theorem Turns.written (turns : Turns reader patch ending moved) (h : At text position reader) :
    ∃ rest, text.drop position = write patch ++ rest ∧ (ending = .ok () → rest = []) := by
  induction turns generalizing position with
  | done empty =>
    rw [isEmpty_at h] at empty
    have final := of_decide_eq_true (Except.ok.inj (Prod.mk.inj empty).1)
    exact ⟨[], List.drop_eq_nil_of_le final, fun _ => rfl⟩
  | lost | broken => exact ⟨_, rfl, nofun⟩
  | turn more first _ ih =>
    rw [isEmpty_at h] at more
    obtain ⟨-, rfl⟩ := Prod.mk.inj more
    obtain ⟨here, behind⟩ := Fragment.read_eq_ok h first
    obtain ⟨rest, later, final⟩ := ih behind
    exact ⟨rest, by rw [here, later, write, write, List.flatMap_cons, List.append_assoc], final⟩

/-- A patch has at most as many fragments as there are twelve bytes in its stored form. -/
theorem length_le_length_write (patch : Patch) : 12 * patch.length ≤ (write patch).length := by
  induction patch with
  | nil => exact Nat.le_refl _
  | cons fragment patch ih =>
    rw [write] at ih ⊢
    simp only [List.flatMap_cons, List.length_append, Fragment.length_write, List.length_cons]
    omega

/-- **Reading a patch is the inverse of writing it.** From a reader that was made of some bytes, be
it a buffer of them or an inflater of a stream that decodes to them, a patch is decoded exactly if
the lengths of its data can be stored and the bytes are its stored form. From bytes that are no
patch in its stored form none is decoded. In any case the loop ends, and has decoded at most one
fragment for each twelve bytes. -/
theorem read_eq_ok_iff_write (opened : Opened text reader) :
    (∀ patch, (Patch.read reader).1 = .ok patch ↔
      (∀ fragment ∈ patch, fragment.Storable) ∧ write patch = text) ∧
    ((∀ patch, (∀ fragment ∈ patch, fragment.Storable) → write patch ≠ text) →
      ∃ fault, (Patch.read reader).1 = .error fault) ∧
    (∃ patch ending moved, Turns reader patch ending moved) ∧
    ∀ patch ending moved, Turns reader patch ending moved →
      Patch.read reader = (ending.map fun _ => patch, moved) ∧ patch.length ≤ text.length / 12 := by
  have start := opened.start
  have told : ∀ patch, (Patch.read reader).1 = .ok patch ↔
      (∀ fragment ∈ patch, fragment.Storable) ∧ write patch = text := by
    refine fun patch => ⟨fun run => ?_, ?_⟩
    · have small := returns_read (Prod.ext run rfl : Patch.read reader = (.ok patch, _))
      obtain ⟨decoded, ending, moved, turns⟩ := turns_read reader
      obtain ⟨rest, passed, final⟩ := turns.written start
      rw [turns.read_eq] at run
      cases ending with
      | error fault => cases run
      | ok =>
        obtain rfl := Except.ok.inj run
        rw [final rfl, List.append_nil] at passed
        exact ⟨small, passed.symm⟩
    · rintro ⟨small, rfl⟩
      obtain ⟨there, run⟩ := read_write small start rfl
      rw [run]
  refine ⟨told, fun none => ?_, turns_read reader, fun patch ending moved turns =>
    ⟨turns.read_eq, ?_⟩⟩
  · cases run : (Patch.read reader).1 with
    | error fault => exact ⟨fault, rfl⟩
    | ok patch =>
      obtain ⟨small, written⟩ := (told patch).1 run
      exact absurd written (none patch small)
  · obtain ⟨rest, passed, -⟩ := turns.written start
    have few := length_le_length_write patch
    have room := congrArg List.length passed
    rw [List.drop_zero, List.length_append] at room
    omega

/-- A patch of one fragment. -/
def oneFragment : Patch := [⟨1, 2, [9]⟩]

/-- A stream of one stored block, which is the patch in its stored form. -/
def storedFragment : Bytes :=
  [0x78, 1, 1, 13, 0, 0xf2, 0xff] ++ write oneFragment ++ [0, 46, 0, 14]

set_option maxRecDepth 4000 in
theorem decode_storedFragment :
    Zlib.Stream.decode storedFragment = ⟨(write oneFragment).toArray, .complete⟩ := by cbv

/-- The patch is decoded from the stream, and nothing is decoded from all but two of its bytes. -/
theorem read_eq_ok_iff_write_oneFragment :
    (Patch.read (.inflating (.ofBytes storedFragment))).1 = .ok oneFragment ∧
      ∃ fault, (Patch.read (.ofBytes ((write oneFragment).take 11))).1 = .error fault := by
  obtain ⟨whole, -⟩ := read_eq_ok_iff_write (.inflating decode_storedFragment)
  obtain ⟨-, none, -⟩ := read_eq_ok_iff_write (Reader.opened_ofBytes ((write oneFragment).take 11))
  refine ⟨(whole oneFragment).2 ⟨by decide, rfl⟩, none fun patch _ written => ?_⟩
  have few := length_le_length_write patch
  have short : ((write oneFragment).take 11).length = 11 := rfl
  rw [written, short] at few
  have empty : patch = [] := List.length_eq_zero_iff.1 (by omega)
  rw [empty] at written
  cases written

end Patch

end RevisionLog
