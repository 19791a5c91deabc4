/-!
# Byte strings and big-endian numbers

Every number in a revision log is stored most significant byte first. `Bytes.toNat` reads a byte
string as a base-256 numeral and `Bytes.ofNat` writes the last digits of a number. The readings and
writings of words are built on them.
-/

namespace RevisionLog

/-- A byte string. -/
abbrev Bytes := List UInt8

namespace Bytes

/-- The number that a byte string writes in base 256, most significant byte first. -/
def toNat (bytes : Bytes) : Nat :=
  bytes.foldl (fun n b => 256 * n + b.toNat) 0

/-- The last `width` digits of a number in base 256, most significant digit first. -/
def ofNat : (width : Nat) → Nat → Bytes
  | 0, _ => []
  | width + 1, n => ofNat width (n / 256) ++ [UInt8.ofNat n]

/-- The signed 32-bit number stored in four bytes. -/
def int32 (bytes : Bytes) : Int32 :=
  (UInt32.ofNat (toNat bytes)).toInt32

/-- The four bytes that store a signed 32-bit number. -/
def ofInt32 (n : Int32) : Bytes :=
  ofNat 4 n.toUInt32.toNat

/-- The unsigned 64-bit number stored in eight bytes. -/
def uint64 (bytes : Bytes) : UInt64 :=
  UInt64.ofNat (toNat bytes)

/-- The eight bytes that store an unsigned 64-bit number. -/
def ofUInt64 (n : UInt64) : Bytes :=
  ofNat 8 n.toNat

@[simp] theorem toNat_concat (bytes : Bytes) (b : UInt8) :
    toNat (bytes ++ [b]) = 256 * toNat bytes + b.toNat := by
  simp [toNat]

@[simp] theorem length_ofNat (width n : Nat) : (ofNat width n).length = width := by
  induction width generalizing n with
  | zero => rfl
  | succ width ih => simp [ofNat, ih]

@[simp] theorem length_ofInt32 (n : Int32) : (ofInt32 n).length = 4 := by simp [ofInt32]

end Bytes

end RevisionLog
