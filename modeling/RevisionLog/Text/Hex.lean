import RevisionLog.Bytes

/-!
# Hexadecimal text

A byte is written as two digits of `0-9a-f`, high half first. Reading also takes capital digits.
Every written text reads back (`decode?_encode`), and a text that reads back is twice as long as
its bytes (`length_of_decode?`).
-/

namespace RevisionLog.Hex

/-- The ASCII code of the digit for a number below 16. -/
def digit (n : UInt8) : UInt8 :=
  if n < 10 then 48 + n else 87 + n

/-- The number that an ASCII digit stands for, capital letters included. -/
def value? (c : UInt8) : Option UInt8 :=
  if 48 ≤ c ∧ c ≤ 57 then some (c - 48)
  else if 97 ≤ c ∧ c ≤ 102 then some (c - 87)
  else if 65 ≤ c ∧ c ≤ 70 then some (c - 55)
  else none

/-- The two digits of a byte. -/
def pair (b : UInt8) : Bytes :=
  [digit (b >>> 4), digit (b &&& 15)]

/-- The ASCII text that writes a byte string. -/
def encode (bytes : Bytes) : Bytes :=
  bytes.flatMap pair

/-- The byte string that an ASCII text writes, if it is made of pairs of digits. -/
def decode? : Bytes → Option Bytes
  | [] => some []
  | [_] => none
  | high :: low :: rest =>
    match value? high, value? low, decode? rest with
    | some h, some l, some bytes => some ((h <<< 4 ||| l) :: bytes)
    | _, _, _ => none

/-- The two digits of a byte give it back. -/
theorem halves (b : UInt8) :
    value? (digit (b >>> 4)) = some (b >>> 4) ∧ value? (digit (b &&& 15)) = some (b &&& 15) ∧
      (b >>> 4) <<< 4 ||| b &&& 15 = b := by
  have all : ∀ n : Fin 256, let b := UInt8.ofNat n
      value? (digit (b >>> 4)) = some (b >>> 4) ∧ value? (digit (b &&& 15)) = some (b &&& 15) ∧
        (b >>> 4) <<< 4 ||| b &&& 15 = b := by decide +kernel
  simpa using all ⟨b.toNat, b.toNat_lt⟩

@[simp] theorem length_encode (bytes : Bytes) : (encode bytes).length = 2 * bytes.length := by
  induction bytes with
  | nil => rfl
  | cons b rest ih =>
    rw [encode, List.flatMap_cons, List.length_append, ← encode, ih]
    simp only [pair, List.length_cons, List.length_nil]
    omega

theorem decode?_encode (bytes : Bytes) : decode? (encode bytes) = some bytes := by
  induction bytes with
  | nil => rfl
  | cons b rest ih =>
    obtain ⟨high, low, whole⟩ := halves b
    change decode? (digit (b >>> 4) :: digit (b &&& 15) :: encode rest) = _
    simp [decode?, high, low, whole, ih]

theorem length_of_decode? {text bytes : Bytes} (h : decode? text = some bytes) :
    text.length = 2 * bytes.length := by
  fun_induction decode? text generalizing bytes with
  | case1 => simp_all
  | case2 => simp at h
  | case3 _ _ _ _ _ _ read _ _ ih =>
    obtain rfl := Option.some.inj h
    have := ih read
    simp only [List.length_cons]
    omega
  | case4 => simp at h

/-- The ASCII text as a string. -/
def toString (text : Bytes) : String :=
  String.ofList (text.map fun b => Char.ofNat b.toNat)

/-- A number in digits after `0x`, without leading zeros. -/
def ofNat (n : Nat) : String :=
  "0x" ++ String.ofList (Nat.toDigits 16 n)

end RevisionLog.Hex
