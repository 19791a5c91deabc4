import Mathlib
import RevisionLog.NodeId
import RevisionLog.Text.Utf8
import RevisionLog.Proofs.Bytes

/-!
# Node ids and their texts

A hexadecimal text that can be read is made of pairs of digits (`Hex.exists_decode?_iff`), and
writing what was read gives it back in lower case (`Hex.encode_of_decode?`). Digits are ordered as
the numbers that they stand for, and a byte is ordered by its high half before its low half, so
texts are ordered as the bytes that they write (`Hex.compare_encode`, by induction on the bytes).
Node ids are known by their texts therefore, and ordered like them (`NodeId.hex_exact`).
-/

namespace RevisionLog

namespace Hex

variable {b c m n : UInt8} {text bytes : Bytes}

/-! ## Digits -/

/-- The ASCII codes of hexadecimal digits. -/
def IsDigit (c : UInt8) : Prop :=
  ('0'.toUInt8 ≤ c ∧ c ≤ '9'.toUInt8) ∨ ('a'.toUInt8 ≤ c ∧ c ≤ 'f'.toUInt8) ∨
    ('A'.toUInt8 ≤ c ∧ c ≤ 'F'.toUInt8)

instance : DecidablePred IsDigit := fun _ => inferInstanceAs (Decidable (_ ∨ _))

theorem isSome_value?_iff (c : UInt8) : (value? c).isSome ↔ IsDigit c := by
  revert c
  exact Bytes.forall_byte (by decide +kernel)

theorem isDigit_of_value? (h : value? c = some n) : IsDigit c :=
  (isSome_value?_iff c).1 (by rw [h]; rfl)

/-- A digit stands for a number below 16, and is written for it in lower case. -/
theorem digit_of_value? (h : value? c = some n) : n < 16 ∧ digit n = c.toAsciiLower := by
  have all : ∀ c, (value? c).all (fun n => n < 16 ∧ digit n = c.toAsciiLower) = true :=
    Bytes.forall_byte (by decide +kernel)
  have written := all c
  rw [h] at written
  exact of_decide_eq_true written

/-- What holds of any two numbers below 16 holds of the bytes that are as small. -/
theorem forall_small {P : UInt8 → UInt8 → Prop}
    (all : ∀ m n : Fin 16, P (UInt8.ofNat m) (UInt8.ofNat n)) (small : m < 16) (small' : n < 16) :
    P m n := by
  rw [UInt8.lt_iff_toNat_lt] at small small'
  simpa using all ⟨m.toNat, small⟩ ⟨n.toNat, small'⟩

/-- Digits are ordered as the numbers that they stand for. -/
theorem compare_digit (small : m < 16) (small' : n < 16) :
    compare (digit m) (digit n) = compare m n :=
  forall_small (P := fun m n => compare (digit m) (digit n) = compare m n) (by decide +kernel)
    small small'

/-! ## Halves -/

theorem toNat_high (b : UInt8) : (b >>> 4).toNat = b.toNat / 16 := by
  simp [UInt8.toNat_shiftRight, Nat.shiftRight_eq_div_pow]

theorem toNat_low (b : UInt8) : (b &&& 15).toNat = b.toNat % 16 := by
  rw [UInt8.toNat_and]
  exact Nat.and_two_pow_sub_one_eq_mod b.toNat 4

theorem high_lt (b : UInt8) : b >>> 4 < 16 := by
  have := b.toNat_lt
  rw [UInt8.lt_iff_toNat_lt, toNat_high]
  show b.toNat / 16 < 16
  omega

theorem low_lt (b : UInt8) : b &&& 15 < 16 := by
  rw [UInt8.lt_iff_toNat_lt, toNat_low]
  exact Nat.mod_lt _ (by decide)

/-- Two numbers below 16 are the halves of the byte that is made of them. -/
theorem pair_of_halves (small : m < 16) (small' : n < 16) :
    pair (m <<< 4 ||| n) = [digit m, digit n] :=
  forall_small (P := fun m n => pair (m <<< 4 ||| n) = [digit m, digit n]) (by decide +kernel)
    small small'

theorem compare_toNat (b c : UInt8) : compare b c = compare b.toNat c.toNat := by
  show compareOfLessAndEq b c = compareOfLessAndEq b.toNat c.toNat
  simp only [compareOfLessAndEq, UInt8.lt_iff_toNat_lt, ← UInt8.toNat_inj]

/-- Bytes are ordered by their high halves, and where these are equal by their low halves. -/
theorem compare_halves (b c : UInt8) :
    (compare (b >>> 4) (c >>> 4)).then (compare (b &&& 15) (c &&& 15)) = compare b c := by
  rw [compare_toNat, compare_toNat, compare_toNat b, toNat_high, toNat_high, toNat_low, toNat_low]
  generalize b.toNat = m
  generalize c.toNat = n
  rcases Nat.lt_trichotomy (m / 16) (n / 16) with less | same | more
  · rw [Nat.compare_eq_lt.2 less, Nat.compare_eq_lt.2 (show m < n by omega)]
    rfl
  · rw [Nat.compare_eq_eq.2 same]
    show compare (m % 16) (n % 16) = compare m n
    rcases Nat.lt_trichotomy (m % 16) (n % 16) with less | same' | more
    · rw [Nat.compare_eq_lt.2 less, Nat.compare_eq_lt.2 (show m < n by omega)]
    · rw [Nat.compare_eq_eq.2 same', Nat.compare_eq_eq.2 (show m = n by omega)]
    · rw [Nat.compare_eq_gt.2 more, Nat.compare_eq_gt.2 (show n < m by omega)]
  · rw [Nat.compare_eq_gt.2 more, Nat.compare_eq_gt.2 (show n < m by omega)]
    rfl

/-! ## Texts -/

theorem encode_cons (b : UInt8) (bytes : Bytes) :
    encode (b :: bytes) = digit (b >>> 4) :: digit (b &&& 15) :: encode bytes := rfl

/-- Writing what was read from a text gives the text in lower case. By induction on the text, two
digits at a time. -/
theorem encode_of_decode? (h : decode? text = some bytes) :
    encode bytes = text.map UInt8.toAsciiLower := by
  fun_induction decode? text generalizing bytes with
  | case1 =>
    cases h
    rfl
  | case2 => cases h
  | case3 high low rest m n behind rest_read read' read ih =>
    cases h
    obtain ⟨small, written⟩ := digit_of_value? read
    obtain ⟨small', written'⟩ := digit_of_value? read'
    have front : encode ((m <<< 4 ||| n) :: behind) = pair (m <<< 4 ||| n) ++ encode behind := rfl
    rw [front, pair_of_halves small small', ih rest_read, written, written']
    rfl
  | case4 => cases h

/-- A text can be read if it is made of pairs of digits. -/
theorem exists_decode?_iff :
    (∃ bytes, decode? text = some bytes) ↔ 2 ∣ text.length ∧ ∀ c ∈ text, IsDigit c := by
  have length (high low : UInt8) (rest : Bytes) :
      2 ∣ (high :: low :: rest).length ↔ 2 ∣ rest.length := by
    rw [List.length_cons, List.length_cons]
    omega
  fun_induction decode? text with
  | case1 => simp
  | case2 => simp
  | case3 high low rest m n behind rest_read read' read ih =>
    rw [length, List.forall_mem_cons, List.forall_mem_cons]
    obtain ⟨even, digits⟩ := ih.1 ⟨behind, rest_read⟩
    exact iff_of_true ⟨_, rfl⟩ ⟨even, isDigit_of_value? read, isDigit_of_value? read', digits⟩
  | case4 high low rest unread ih =>
    rw [length, List.forall_mem_cons, List.forall_mem_cons]
    refine iff_of_false ?_ ?_
    · rintro ⟨_, same⟩
      cases same
    · rintro ⟨even, digit, digit', digits⟩
      obtain ⟨m, read⟩ := Option.isSome_iff_exists.1 ((isSome_value?_iff high).2 digit)
      obtain ⟨n, read'⟩ := Option.isSome_iff_exists.1 ((isSome_value?_iff low).2 digit')
      obtain ⟨behind, rest_read⟩ := ih.2 ⟨even, digits⟩
      exact unread m n behind read read' rest_read

theorem encode_injective : Function.Injective encode := by
  intro bytes other same
  exact Option.some.inj (by rw [← decode?_encode bytes, same, decode?_encode])

/-- **Texts are ordered as the bytes that they write.** By induction on the bytes. -/
theorem compare_encode (bytes other : Bytes) :
    compare (encode bytes) (encode other) = compare bytes other := by
  induction bytes generalizing other with
  | nil =>
    cases other with
    | nil => rfl
    | cons c other => rfl
  | cons b bytes ih =>
    cases other with
    | nil => rfl
    | cons c other =>
      rw [encode_cons, encode_cons, List.compare_cons_cons, List.compare_cons_cons,
        List.compare_cons_cons, compare_digit (high_lt b) (high_lt c),
        compare_digit (low_lt b) (low_lt c), ih, ← Ordering.then_assoc, compare_halves]

end Hex

namespace NodeId

variable {text : Bytes} {node : NodeId}

/-- What is read of a text are the bytes that it writes. -/
theorem ofHex_eq_ok : ofHex text = .ok node ↔ Hex.decode? text = some node.bytes := by
  rw [ofHex]
  refine ⟨fun read => ?_, fun read => ?_⟩
  · split at read
    · rename_i bytes decoded
      split at read
      · cases read
        exact decoded
      · cases read
    · cases read
  · rw [read]
    exact dif_pos node.length_eq

/-- A text can be read if it is made of forty digits. -/
theorem exists_ofHex_iff :
    (∃ node, ofHex text = .ok node) ↔ text.length = 40 ∧ ∀ c ∈ text, Hex.IsDigit c := by
  refine ⟨fun ⟨node, read⟩ => ?_, fun ⟨forty, digits⟩ => ?_⟩
  · rw [ofHex_eq_ok] at read
    refine ⟨?_, (Hex.exists_decode?_iff.1 ⟨_, read⟩).2⟩
    rw [Hex.length_of_decode? read, node.length_eq]
  · obtain ⟨bytes, read⟩ := Hex.exists_decode?_iff.2 ⟨forty ▸ by decide, digits⟩
    have length := Hex.length_of_decode? read
    exact ⟨⟨bytes, by omega⟩, ofHex_eq_ok.2 read⟩

theorem toHex_injective : Function.Injective toHex := by
  intro a b same
  have := Hex.encode_injective same
  rwa [NodeId.mk.injEq]

/-- **The texts of node ids are exact and in order.** A text can be read exactly if it is made of
forty digits, and is then written as it was but for capital letters. Every id is read back from its
text, and ids are ordered as their texts are, so they are equal if their texts are. The short text
of an id is the first twelve digits of its text. -/
theorem hex_exact (text : Bytes) (a b : NodeId) :
    ((∃ node, ofHex text = .ok node) ↔ text.length = 40 ∧ ∀ c ∈ text, Hex.IsDigit c) ∧
      (∀ node, ofHex text = .ok node → node.toHex = text.map UInt8.toAsciiLower) ∧
      ofHex a.toHex = .ok a ∧
      compare a b = compare a.toHex b.toHex ∧ (a.toHex = b.toHex ↔ a = b) ∧
      a.shortHex <+: a.toHex ∧ a.shortHex.length = 12 := by
  refine ⟨exists_ofHex_iff, fun node read => ?_, ofHex_toHex a, ?_, toHex_injective.eq_iff,
    List.take_prefix _ _, ?_⟩
  · exact Hex.encode_of_decode? (ofHex_eq_ok.1 read)
  · exact (Hex.compare_encode a.bytes b.bytes).symm
  · rw [shortHex, List.length_take, toHex, Hex.length_encode, a.length_eq]
    rfl

/-- A text of digits in both cases. -/
def mixedText : Bytes := Text.utf8 "0123456789abcdef0123456789ABCDEF01234567"

/-- The text can be read, and is written without its capital letters. -/
theorem hex_exact_mixed : ∃ node, ofHex mixedText = .ok node ∧
    node.toHex = Text.utf8 "0123456789abcdef0123456789abcdef01234567" := by
  obtain ⟨readable, lower, -⟩ := hex_exact mixedText null null
  obtain ⟨node, read⟩ := readable.2 (by decide +kernel)
  exact ⟨node, read, (lower node read).trans (by decide +kernel)⟩

end NodeId

end RevisionLog
