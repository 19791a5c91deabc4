import Mathlib.Algebra.Group.Nat.Defs
import RevisionLog.Bytes

/-!
# Numbers in byte strings

Reading a numeral and writing the digits of a number are inverse (`Bytes.toNat_ofNat`,
`Bytes.ofNat_toNat`), and so are reading and writing a word (`Bytes.int32_ofInt32`,
`Bytes.ofInt32_int32`). `Bytes.word` and `Bytes.long` are the numbers stored at a position of a byte
string. A position can be counted from any earlier one (`Bytes.word_add`), and in a concatenation
from where its second part starts (`Bytes.word_append`). What is behind a number has no part in it
(`Bytes.word_take`).
-/

namespace RevisionLog.Bytes

/-- What holds of all numbers below 256 holds of all bytes. -/
theorem forall_byte {P : UInt8 → Prop} (all : ∀ n : Fin 256, P (UInt8.ofNat n)) (b : UInt8) :
    P b := by
  simpa using all ⟨b.toNat, b.toNat_lt⟩

/-! ## Reading and writing -/

/-- Writing keeps a number up to the digits that do not fit. -/
theorem toNat_ofNat (width n : Nat) : toNat (ofNat width n) = n % 256 ^ width := by
  induction width generalizing n with
  | zero => simp [ofNat, toNat, Nat.mod_one]
  | succ width ih =>
    have digit : (UInt8.ofNat n).toNat = n % 256 := by simp
    rw [ofNat, toNat_concat, ih, digit, Nat.pow_succ, Nat.mul_comm (256 ^ width), Nat.mod_mul]
    omega

/-- A number is fixed by its digits. -/
theorem ofNat_toNat (bytes : Bytes) : ofNat bytes.length (toNat bytes) = bytes := by
  generalize h : bytes.length = width
  induction width generalizing bytes with
  | zero => exact (List.eq_nil_of_length_eq_zero h).symm ▸ rfl
  | succ width ih =>
    obtain rfl | ⟨front, b, rfl⟩ := List.eq_nil_or_concat bytes
    · simp at h
    · have front_length : front.length = width := by simpa using h
      have tail : (256 * toNat front + b.toNat) / 256 = toNat front := by
        have := b.toNat_lt; omega
      have digit : UInt8.ofNat (256 * toNat front + b.toNat) = b := by
        apply UInt8.toNat_inj.1
        have := b.toNat_lt
        simp only [UInt8.toNat_ofNat']
        omega
      rw [List.concat_eq_append, ofNat, toNat_concat, tail, digit, ih front front_length]

/-- A numeral of `n` digits is below `256 ^ n`. -/
theorem toNat_lt (bytes : Bytes) : toNat bytes < 256 ^ bytes.length := by
  have h := toNat_ofNat bytes.length (toNat bytes)
  rw [ofNat_toNat] at h
  rw [h]
  exact Nat.mod_lt _ (Nat.pow_pos (by decide))

@[simp] theorem int32_ofInt32 (n : Int32) : int32 (ofInt32 n) = n := by
  have fits : n.toUInt32.toNat % 256 ^ 4 = n.toUInt32.toNat :=
    Nat.mod_eq_of_lt n.toUInt32.toNat_lt
  rw [int32, ofInt32, toNat_ofNat, fits]
  simp

theorem ofInt32_int32 {bytes : Bytes} (h : bytes.length = 4) : ofInt32 (int32 bytes) = bytes := by
  have small : toNat bytes < 2 ^ 32 := by simpa [h] using toNat_lt bytes
  have word : (int32 bytes).toUInt32.toNat = toNat bytes := by
    rw [int32, UInt32.toUInt32_toInt32, UInt32.toNat_ofNat', Nat.mod_eq_of_lt small]
  rw [ofInt32, word, ← h, ofNat_toNat]

/-! ## Numbers at a position -/

/-- The word at a position of a byte string. -/
def word (bytes : Bytes) (position : Nat) : Int32 := int32 ((bytes.drop position).take 4)

/-- The long word at a position of a byte string. -/
def long (bytes : Bytes) (position : Nat) : UInt64 := uint64 ((bytes.drop position).take 8)

theorem foldl_eq_toNat (high : Nat) (bytes : Bytes) :
    bytes.foldl (fun n b => 256 * n + b.toNat) high = high * 256 ^ bytes.length + toNat bytes := by
  induction bytes generalizing high with
  | nil => simp [toNat]
  | cons b bytes ih =>
    have low : toNat (b :: bytes) = b.toNat * 256 ^ bytes.length + toNat bytes := by
      rw [toNat, List.foldl_cons, ih, Nat.mul_zero, Nat.zero_add]
    rw [List.foldl_cons, ih, low, List.length_cons, Nat.pow_succ, Nat.add_mul, Nat.add_assoc,
      Nat.mul_comm 256 high, Nat.mul_assoc, Nat.mul_comm 256]

theorem toNat_append (front back : Bytes) :
    toNat (front ++ back) = toNat front * 256 ^ back.length + toNat back := by
  rw [toNat, List.foldl_append, foldl_eq_toNat]
  rfl

theorem word_add (bytes : Bytes) (place offset : Nat) :
    bytes.word (place + offset) = word (bytes.drop place) offset := by
  rw [word, word, List.drop_drop]

theorem word_append {front back : Bytes} {position : Nat} (behind : front.length ≤ position) :
    word (front ++ back) position = word back (position - front.length) := by
  rw [word, List.drop_append, List.drop_eq_nil_of_le behind, List.nil_append, word]

theorem word_take (bytes : Bytes) {place length : Nat} (inside : place + 4 ≤ length) :
    word (bytes.take length) place = bytes.word place := by
  rw [word, word, List.drop_take, List.take_take, Nat.min_eq_left (by omega)]

@[simp] theorem word_ofInt32 (n : Int32) (bytes : Bytes) : word (ofInt32 n ++ bytes) 0 = n := by
  rw [word, List.drop_zero, List.take_left' (length_ofInt32 n), int32_ofInt32]

end RevisionLog.Bytes
