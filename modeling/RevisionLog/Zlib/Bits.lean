import RevisionLog.Bytes

/-!
# Bit streams

A compressed stream is read as bits, the low bit of each byte first. A `Decoder` reads bits and
returns a value, or halts because the bits ran out or because they make no sense. No decoder of
this library puts bits back (`Decoder.Consumes`), and a read of `n` bits uses up `n` of them
(`length_of_number`), so a loop over decoders ends.
-/

namespace RevisionLog.Zlib

/-- Bits in the order in which they are read. -/
abbrev Bits := List Bool

/-- The bits of a byte string. -/
def Bits.ofBytes (bytes : Bytes) : Bits :=
  bytes.flatMap fun b => (List.range 8).map fun i => b.toNat.testBit i

/-- Why decoding stopped before its end. -/
inductive Halt
  /-- The bits ran out. -/
  | short
  /-- No stream continues in this way. -/
  | malformed
  deriving DecidableEq

/-- A step that reads bits and returns a value. -/
abbrev Decoder (α : Type) := StateT Bits (Except Halt) α

namespace Decoder

/-- The decoder leaves no more bits than it was given. -/
def Consumes {α : Type} (decoder : Decoder α) : Prop :=
  ∀ ⦃bits value rest⦄, decoder bits = .ok (value, rest) → rest.length ≤ bits.length

theorem consumes_pure {α : Type} (value : α) : Consumes (pure value) := by
  intro bits value rest h
  obtain ⟨-, rfl⟩ := Prod.mk.inj (Except.ok.inj h)
  exact Nat.le_refl _

theorem consumes_throw {α : Type} (halt : Halt) : Consumes (throw halt : Decoder α) := by
  intro bits value rest h
  cases h

theorem Consumes.bind {α β : Type} {decoder : Decoder α} {next : α → Decoder β}
    (first : Consumes decoder) (second : ∀ value, Consumes (next value)) :
    Consumes (decoder >>= next) := by
  intro bits value rest h
  simp only [Bind.bind, StateT.bind] at h
  cases run : decoder bits with
  | error => simp [run, Except.bind] at h
  | ok result =>
    simp only [run, Except.bind] at h
    exact Nat.le_trans (second _ h) (first run)

end Decoder

/-- Reads a number of `width` bits, the lowest first. -/
def number : (width : Nat) → Decoder Nat
  | 0 => pure 0
  | width + 1 => fun
    | [] => .error .short
    | bit :: bits =>
      match number width bits with
      | .ok (high, rest) => .ok (2 * high + bit.toNat, rest)
      | .error halt => .error halt

/-- Drops what is left of a byte of which some bits have been read. -/
def align : Decoder Unit := fun bits => .ok ((), bits.drop (bits.length % 8))

theorem length_of_number {width n : Nat} {bits rest : Bits}
    (h : number width bits = .ok (n, rest)) : rest.length + width = bits.length := by
  induction width generalizing bits n with
  | zero =>
    obtain ⟨-, rfl⟩ := Prod.mk.inj (Except.ok.inj h)
    rfl
  | succ width ih =>
    cases bits with
    | nil => simp [number] at h
    | cons bit bits =>
      simp only [number] at h
      split at h
      · rename_i read
        obtain ⟨-, rfl⟩ := Prod.mk.inj (Except.ok.inj h)
        have := ih read
        simp only [List.length_cons]
        omega
      · simp at h

theorem consumes_number (width : Nat) : Decoder.Consumes (number width) := by
  intro bits n rest h
  have := length_of_number h
  omega

theorem consumes_align : Decoder.Consumes align := by
  intro bits _ rest h
  simp only [align, Except.ok.injEq, Prod.mk.injEq] at h
  simp [← h.2]

end RevisionLog.Zlib
