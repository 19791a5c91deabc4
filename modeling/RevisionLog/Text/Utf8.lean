import RevisionLog.Bytes

/-!
# UTF-8 text

Texts are stored as UTF-8 (`Text.utf8`). Reading is lenient: `Text.decode` puts one replacement
character in the place of each longest beginning of a character that does not go on as it should,
and of each byte that cannot start one.
-/

namespace RevisionLog.Text

/-- The bytes of a text. -/
def utf8 (text : String) : Bytes := text.toList.flatMap String.utf8EncodeChar

/-- The character that stands for bytes that are no text. -/
def replacement : Char := '\uFFFD'

/-- For a byte that starts a character of several bytes: how many follow, and between which bounds
the first of these lies. The bounds exclude longer writings of a character, surrogates and numbers
that are too large. -/
def lead? (b : UInt8) : Option (Nat × UInt8 × UInt8) :=
  if b < 0xc2 then none
  else if b < 0xe0 then some (1, 0x80, 0xbf)
  else if b = 0xe0 then some (2, 0xa0, 0xbf)
  else if b = 0xed then some (2, 0x80, 0x9f)
  else if b < 0xf0 then some (2, 0x80, 0xbf)
  else if b = 0xf0 then some (3, 0x90, 0xbf)
  else if b < 0xf4 then some (3, 0x80, 0xbf)
  else if b = 0xf4 then some (3, 0x80, 0x8f)
  else none

/-- Reads `count` bytes that go on with a character, the first of them between two bounds, and
adds their bits to a number. Stops in front of the first byte that does not go on. -/
def continue? : (count : Nat) → (low high : UInt8) → (number : Nat) → Bytes → Option Nat × Bytes
  | 0, _, _, number, bytes => (some number, bytes)
  | _ + 1, _, _, _, [] => (none, [])
  | count + 1, low, high, number, b :: rest =>
    if low ≤ b ∧ b ≤ high then continue? count 0x80 0xbf (number * 64 + b.toNat % 64) rest
    else (none, b :: rest)

theorem length_continue? (count : Nat) (low high : UInt8) (number : Nat) (bytes : Bytes) :
    (continue? count low high number bytes).2.length ≤ bytes.length := by
  fun_induction continue? count low high number bytes with
  | case1 => exact Nat.le_refl _
  | case2 => exact Nat.le_refl _
  | case3 _ _ _ _ _ _ _ ih => exact Nat.le_succ_of_le ih
  | case4 => exact Nat.le_refl _

/-- The characters that a byte string stands for. -/
def decode : Bytes → List Char
  | [] => []
  | b :: rest =>
    if b < 0x80 then Char.ofNat b.toNat :: decode rest
    else
      match lead? b with
      | none => replacement :: decode rest
      | some (count, low, high) =>
        -- A byte that starts `count + 1` bytes has six bits less `count` of the number.
        let first := b.toNat % (1 <<< (6 - count))
        let char := match (continue? count low high first rest).1 with
          | some number => Char.ofNat number
          | none => replacement
        char :: decode (continue? count low high first rest).2
termination_by bytes => bytes.length
decreasing_by
  · exact Nat.lt_succ_self _
  · exact Nat.lt_succ_self _
  · exact Nat.lt_succ_of_le (length_continue? ..)

/-- The text that a byte string stands for. -/
def ofBytes (bytes : Bytes) : String := String.ofList (decode bytes)

end RevisionLog.Text
