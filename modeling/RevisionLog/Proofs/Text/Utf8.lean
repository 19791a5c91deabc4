import Mathlib
import RevisionLog.NodeId
import RevisionLog.Text.Utf8

/-!
# Reading UTF-8 text

Reading the bytes of a text gives the text back, whatever bytes follow (`Text.decode_utf8_append`,
`Text.ofBytes_utf8`). The bytes below 128 among the bytes of a text are its characters below 128
(`Text.mem_utf8_iff`), so that one can look for these characters without reading the text.
-/

namespace RevisionLog

namespace Text

variable {b : UInt8} {bytes rest : Bytes}

/-! ## The first byte of a character -/

theorem decode_ascii (ascii : b.toNat < 128) :
    decode (b :: bytes) = Char.ofNat b.toNat :: decode bytes := by
  have below : b < 0x80 := UInt8.lt_iff_toNat_lt.2 ascii
  rw [decode, if_pos below]

theorem lead?_two (low : 0xc2 ≤ b.toNat) (high : b.toNat < 0xe0) :
    lead? b = some (1, 0x80, 0xbf) := by
  have above : ¬b < 0xc2 := fun below => absurd (UInt8.lt_iff_toNat_lt.1 below) (Nat.not_lt.2 low)
  have below : b < 0xe0 := UInt8.lt_iff_toNat_lt.2 high
  rw [lead?, if_neg above, if_pos below]

theorem lead?_three (low : 0xe0 ≤ b.toNat) (high : b.toNat < 0xf0) :
    lead? b =
      some (2, if b.toNat = 0xe0 then 0xa0 else 0x80, if b.toNat = 0xed then 0x9f else 0xbf) := by
  simp only [lead?, UInt8.lt_iff_toNat_lt, ← UInt8.toNat_inj]
  grind

theorem lead?_four (low : 0xf0 ≤ b.toNat) (high : b.toNat ≤ 0xf4) :
    lead? b =
      some (3, if b.toNat = 0xf0 then 0x90 else 0x80, if b.toNat = 0xf4 then 0x8f else 0xbf) := by
  simp only [lead?, UInt8.lt_iff_toNat_lt, ← UInt8.toNat_inj]
  grind

/-! ## The bytes behind it -/

/-- A byte that goes on with a character adds six bits to its number. -/
theorem continue?_cons {low high : UInt8} {count number n : Nat} (above : low.toNat ≤ n % 64 + 128)
    (below : n % 64 + 128 ≤ high.toNat) :
    continue? (count + 1) low high number (UInt8.ofNat (n % 64 + 128) :: bytes) =
      continue? count 0x80 0xbf (number * 64 + n % 64) bytes := by
  have value : (UInt8.ofNat (n % 64 + 128)).toNat = n % 64 + 128 := by
    rw [UInt8.toNat_ofNat']
    omega
  have inside : low ≤ UInt8.ofNat (n % 64 + 128) ∧ UInt8.ofNat (n % 64 + 128) ≤ high := by
    rw [UInt8.le_iff_toNat_le, UInt8.le_iff_toNat_le, value]
    exact ⟨above, below⟩
  have bits : (n % 64 + 128) % 64 = n % 64 := by omega
  rw [continue?, if_pos inside, value, bits]

/-- A character of several bytes is read from its first byte and those that go on with it. -/
theorem decode_of_lead {count number : Nat} {low high : UInt8}
    (lead : lead? b = some (count, low, high))
    (read : continue? count low high (b.toNat % (1 <<< (6 - count))) bytes =
      (some number, rest)) :
    decode (b :: bytes) = Char.ofNat number :: decode rest := by
  have above : ¬b < 0x80 := by
    intro below
    have early : b < 0xc2 := UInt8.lt_trans below (by decide)
    rw [lead?, if_pos early] at lead
    cases lead
  rw [decode, if_neg above, lead]
  simp only [read]

/-! ## Characters of each width -/

variable {n : Nat}

theorem decode_two (low : 0x80 ≤ n) (high : n < 0x800) :
    decode (UInt8.ofNat (n / 64 % 32 + 192) :: UInt8.ofNat (n % 64 + 128) :: rest) =
      Char.ofNat n :: decode rest := by
  have first : (UInt8.ofNat (n / 64 % 32 + 192)).toNat = n / 64 % 32 + 192 :=
    UInt8.toNat_ofNat_of_lt' (show _ < 256 by omega)
  have number : (n / 64 % 32 + 192) % (1 <<< (6 - 1)) * 64 + n % 64 = n := by
    change _ % 32 * 64 + _ = _
    omega
  refine decode_of_lead (lead?_two (by omega) (by omega)) ?_
  rw [first, continue?_cons (by simp) (by simp; omega), number, continue?]

theorem decode_three (low : 0x800 ≤ n) (high : n < 0x10000) (valid : n < 0xd800 ∨ 0xdfff < n) :
    decode (UInt8.ofNat (n / 4096 % 16 + 224) :: UInt8.ofNat (n / 64 % 64 + 128) ::
      UInt8.ofNat (n % 64 + 128) :: rest) = Char.ofNat n :: decode rest := by
  have first : (UInt8.ofNat (n / 4096 % 16 + 224)).toNat = n / 4096 % 16 + 224 :=
    UInt8.toNat_ofNat_of_lt' (show _ < 256 by omega)
  have number : ((n / 4096 % 16 + 224) % (1 <<< (6 - 2)) * 64 + n / 64 % 64) * 64 + n % 64 = n := by
    change (_ % 16 * 64 + _) * 64 + _ = _
    omega
  refine decode_of_lead (lead?_three (by omega) (by omega)) ?_
  rw [first, continue?_cons, continue?_cons (by simp) (by simp; omega), number, continue?]
  -- No longer writing of a smaller number below, no surrogate above.
  · split <;> simp
    omega
  · split <;> simp <;> omega

theorem decode_four (low : 0x10000 ≤ n) (high : n < 0x110000) :
    decode (UInt8.ofNat (n / 262144 % 8 + 240) :: UInt8.ofNat (n / 4096 % 64 + 128) ::
      UInt8.ofNat (n / 64 % 64 + 128) :: UInt8.ofNat (n % 64 + 128) :: rest) =
        Char.ofNat n :: decode rest := by
  have first : (UInt8.ofNat (n / 262144 % 8 + 240)).toNat = n / 262144 % 8 + 240 :=
    UInt8.toNat_ofNat_of_lt' (show _ < 256 by omega)
  have number : (((n / 262144 % 8 + 240) % (1 <<< (6 - 3)) * 64 + n / 4096 % 64) * 64 +
      n / 64 % 64) * 64 + n % 64 = n := by
    change ((_ % 8 * 64 + _) * 64 + _) * 64 + _ = _
    omega
  refine decode_of_lead (lead?_four (by omega) (by omega)) ?_
  rw [first, continue?_cons, continue?_cons (by simp) (by simp; omega),
    continue?_cons (by simp) (by simp; omega), number, continue?]
  -- No longer writing of a smaller number below, no number that is too large above.
  · split <;> simp
    omega
  · split <;> simp <;> omega

/-! ## Texts -/

theorem decode_utf8EncodeChar (c : Char) (rest : Bytes) :
    decode (String.utf8EncodeChar c ++ rest) = c :: decode rest := by
  have valid : c.toNat < 0xd800 ∨ 0xdfff < c.toNat ∧ c.toNat < 0x110000 := c.valid
  nth_rewrite 2 [← Char.ofNat_toNat c]
  fun_cases String.utf8EncodeChar c with
  | case1 v one =>
    have first : (UInt8.ofNat v).toNat = v := UInt8.toNat_ofNat_of_lt' (show _ < 256 by omega)
    rw [List.singleton_append, decode_ascii (by omega), first]
    rfl
  | case2 v one two => exact decode_two (by omega) (by omega)
  | case3 v one two three => exact decode_three (by omega) (by omega) (valid.imp_right And.left)
  | case4 v one two three =>
    change v < 0xd800 ∨ 0xdfff < v ∧ v < 0x110000 at valid
    exact decode_four (by omega) (by omega)

theorem decode_flatMap_append (chars : List Char) (rest : Bytes) :
    decode (chars.flatMap String.utf8EncodeChar ++ rest) = chars ++ decode rest := by
  induction chars with
  | nil => rfl
  | cons c chars ih =>
    rw [List.flatMap_cons, List.append_assoc, decode_utf8EncodeChar, ih, List.cons_append]

/-- Reading the bytes of a text gives its characters, whatever bytes follow. -/
theorem decode_utf8_append (text : String) (rest : Bytes) :
    decode (utf8 text ++ rest) = text.toList ++ decode rest :=
  decode_flatMap_append text.toList rest

theorem decode_utf8 (text : String) : decode (utf8 text) = text.toList := by
  rw [← List.append_nil (utf8 text), decode_utf8_append, decode, List.append_nil]

/-- Reading the bytes of a text gives it back. -/
theorem ofBytes_utf8 (text : String) : ofBytes (utf8 text) = text := by
  rw [ofBytes, decode_utf8, String.ofList_toList]

/-! ## Characters below 128 -/

variable {c : Char} {text : String}

theorem utf8EncodeChar_ascii (ascii : c.toNat < 128) :
    String.utf8EncodeChar c = [UInt8.ofNat c.toNat] :=
  String.utf8EncodeChar_eq_singleton (Char.utf8Size_eq_one_iff.2 (Nat.le_of_lt_succ ascii))

/-- Every other character is written in larger bytes. -/
theorem le_of_mem_utf8EncodeChar (wide : 128 ≤ c.toNat) :
    ∀ b ∈ String.utf8EncodeChar c, 128 ≤ b.toNat := by
  have large {n : Nat} (low : 128 ≤ n) (high : n < 256) : 128 ≤ (UInt8.ofNat n).toNat := by
    rwa [UInt8.toNat_ofNat_of_lt' high]
  fun_cases String.utf8EncodeChar c with
  | case1 v one => exact absurd one (Nat.not_le.2 wide)
  | case2 v one two =>
    simp only [List.forall_mem_cons, List.not_mem_nil, false_imp_iff, implies_true]
    exact ⟨large (by omega) (by omega), large (by omega) (by omega), trivial⟩
  | case3 v one two three =>
    simp only [List.forall_mem_cons, List.not_mem_nil, false_imp_iff, implies_true]
    exact ⟨large (by omega) (by omega), large (by omega) (by omega), large (by omega) (by omega),
      trivial⟩
  | case4 v one two three =>
    have bound : v < 0x110000 := by
      have valid : v < 0xd800 ∨ 0xdfff < v ∧ v < 0x110000 := c.valid
      omega
    simp only [List.forall_mem_cons, List.not_mem_nil, false_imp_iff, implies_true]
    exact ⟨large (by omega) (by omega), large (by omega) (by omega), large (by omega) (by omega),
      large (by omega) (by omega), trivial⟩

/-- A byte below 128 is only in the writing of the character with this number. -/
theorem mem_utf8EncodeChar_iff {c d : Char} (ascii : c.toNat < 128) :
    UInt8.ofNat c.toNat ∈ String.utf8EncodeChar d ↔ c = d := by
  have value : (UInt8.ofNat c.toNat).toNat = c.toNat :=
    UInt8.toNat_ofNat_of_lt' (show _ < 256 by omega)
  constructor
  · intro member
    have narrow : d.toNat < 128 := by
      by_contra wide
      have := le_of_mem_utf8EncodeChar (Nat.not_lt.1 wide) _ member
      omega
    rw [utf8EncodeChar_ascii narrow, List.mem_singleton, ← UInt8.toNat_inj, value,
      UInt8.toNat_ofNat_of_lt' (show _ < 256 by omega)] at member
    exact Char.toNat_inj.1 member
  · rintro rfl
    rw [utf8EncodeChar_ascii ascii]
    exact List.mem_singleton_self _

/-- The bytes of a text hold a byte below 128 if the text holds the character with this number. -/
theorem mem_utf8_iff (ascii : c.toNat < 128) :
    UInt8.ofNat c.toNat ∈ utf8 text ↔ c ∈ text.toList := by
  simp only [utf8, List.mem_flatMap, mem_utf8EncodeChar_iff ascii, exists_eq_right']

/-- The bytes of a text end in a byte below 128 if the text ends in the character. -/
theorem getLast?_utf8_iff (ascii : c.toNat < 128) :
    (utf8 text).getLast? = some (UInt8.ofNat c.toNat) ↔ text.toList.getLast? = some c := by
  rw [utf8]
  obtain empty | ⟨front, d, same⟩ := List.eq_nil_or_concat text.toList
  · simp [empty]
  · have ends : String.utf8EncodeChar d ≠ [] := String.utf8EncodeChar_ne_nil
    rw [same, List.concat_eq_append, List.flatMap_append, List.flatMap_singleton,
      List.getLast?_append_of_ne_nil _ ends, List.getLast?_concat, Option.some.injEq,
      eq_comm (a := d)]
    constructor
    · exact fun last => (mem_utf8EncodeChar_iff ascii).1 (List.mem_of_getLast? last)
    · rintro rfl
      rw [utf8EncodeChar_ascii ascii]
      rfl

/-! ## Hexadecimal digits -/

/-- The bytes of hexadecimal text are those that it is made of. -/
theorem utf8_toString {bytes : Bytes} (ascii : ∀ b ∈ bytes, b.toNat < 128) :
    utf8 (Hex.toString bytes) = bytes := by
  have single : ∀ b ∈ bytes, String.utf8EncodeChar (Char.ofNat b.toNat) = [b] := by
    intro b member
    have number : (Char.ofNat b.toNat).toNat = b.toNat := by
      have valid : b.toNat.isValidChar := .inl (by have := ascii b member; omega)
      rw [Char.toNat_ofNat, if_pos valid]
    have narrow : (Char.ofNat b.toNat).toNat < 128 := number.symm ▸ ascii b member
    rw [utf8EncodeChar_ascii narrow, number, UInt8.ofNat_toNat]
  rw [utf8, Hex.toString, String.toList_ofList, List.flatMap_map, List.flatMap_congr single]
  exact List.flatMap_singleton' bytes

end Text

namespace Hex

theorem bounds_digit {n : UInt8} (small : n.toNat < 16) :
    48 ≤ (digit n).toNat ∧ (digit n).toNat < 128 := by
  unfold digit
  split
  · simp
    omega
  · simp
    omega

/-- Digits are printable bytes of ASCII. -/
theorem bounds_of_mem_encode {bytes : Bytes} {d : UInt8} (member : d ∈ encode bytes) :
    48 ≤ d.toNat ∧ d.toNat < 128 := by
  obtain ⟨b, -, among⟩ := List.mem_flatMap.1 member
  have high : (b >>> 4).toNat < 16 := by
    have bound := b.toNat_lt
    simp only [UInt8.toNat_shiftRight, Nat.shiftRight_eq_div_pow]
    change b.toNat / 16 < 16
    omega
  have low : (b &&& 15).toNat < 16 := by
    rw [UInt8.toNat_and]
    exact Nat.lt_succ_of_le Nat.and_le_right
  simp only [pair, List.mem_cons, List.not_mem_nil, or_false] at among
  obtain rfl | rfl := among
  · exact bounds_digit high
  · exact bounds_digit low

end Hex

theorem NodeId.utf8_toHex (node : NodeId) : Text.utf8 (Hex.toString node.toHex) = node.toHex :=
  Text.utf8_toString fun _ member => (Hex.bounds_of_mem_encode member).2

end RevisionLog
