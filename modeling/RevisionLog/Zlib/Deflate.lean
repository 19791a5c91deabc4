import RevisionLog.Zlib.Code

/-!
# Compressed blocks

A deflate stream is a sequence of blocks. A block is stored as it is, or written with a fixed or a
transmitted pair of prefix codes: one for single bytes, lengths of matches and the end of the block,
the other for the distances back at which matches start. `inflate` decodes a stream up to its
last block. It returns all bytes decoded before it had to stop, and the bits after the last block
if it did not have to. Every step uses up bits, so decoding ends on every input.
-/

namespace RevisionLog.Zlib

/-- The bytes decoded so far, and the bits left or the reason to stop. -/
abbrev Progress := Array UInt8 × Except Halt Bits

/-! ## Matches -/

/-- The least length and the number of extra bits for a length symbol. Lengths grow one by one at
first, then by groups of four of twice the width, and the last symbol is the longest match. -/
def lengthRange? (symbol : Nat) : Option (Nat × Nat) :=
  if symbol < 265 then some (symbol - 254, 0)
  else if symbol < 285 then
    let extra := (symbol - 261) / 4
    some (3 + ((4 + (symbol - 261) % 4) <<< extra), extra)
  else if symbol = 285 then some (258, 0)
  else none

/-- The least distance and the number of extra bits for a distance symbol: one by one at first,
then by groups of two of twice the width. -/
def distanceRange? (index : Nat) : Option (Nat × Nat) :=
  if index < 4 then some (1 + index, 0)
  else if index < 30 then some (1 + ((2 + index % 2) <<< (index / 2 - 1)), index / 2 - 1)
  else none

/-- Reads the extra bits that complete an entry; a symbol without one is malformed. -/
def readEntry : Option (Nat × Nat) → Decoder Nat
  | none => throw .malformed
  | some (least, extra) => do return least + (← number extra)

/-- Reads the rest of a match after its length symbol: its length and its distance. -/
def readMatch (distances : Code) (symbol : Nat) : Decoder (Nat × Nat) := do
  let length ← readEntry (lengthRange? symbol)
  let distance ← readEntry (distanceRange? (← distances.read))
  return (length, distance)

/-- Appends `length` bytes, each equal to the one `distance` before it. What lies before the first
byte counts as zero. -/
def copyBack (distance : Nat) : (length : Nat) → Array UInt8 → Array UInt8
  | 0, out => out
  | length + 1, out =>
    let byte := if distance ≤ out.size then out.getD (out.size - distance) 0 else 0
    copyBack distance length (out.push byte)

theorem consumes_readEntry (entry : Option (Nat × Nat)) : (readEntry entry).Consumes := by
  cases entry with
  | none => exact Decoder.consumes_throw _
  | some entry => exact (consumes_number _).bind fun _ => Decoder.consumes_pure _

theorem consumes_readMatch (distances : Code) (symbol : Nat) :
    (readMatch distances symbol).Consumes :=
  (consumes_readEntry _).bind fun _ => distances.consumes_read.bind fun _ =>
    (consumes_readEntry _).bind fun _ => Decoder.consumes_pure _

/-! ## The three kinds of block -/

/-- Decodes symbols up to the end of a block. -/
def inflateSymbols (literals distances : Code) (bits : Bits) (out : Array UInt8) : Progress :=
  match _read : literals.read bits with
  | .error halt => (out, .error halt)
  | .ok (symbol, rest) =>
    if symbol < 256 then
      inflateSymbols literals distances rest (out.push (UInt8.ofNat symbol))
    else if symbol = 256 then (out, .ok rest)
    else
      match _run : readMatch distances symbol rest with
      | .error halt => (out, .error halt)
      | .ok ((length, distance), rest') =>
        inflateSymbols literals distances rest' (copyBack distance length out)
termination_by bits.length
decreasing_by
  · exact Code.length_of_read _read
  · exact Nat.lt_of_le_of_lt (consumes_readMatch _ _ _run) (Code.length_of_read _read)

/-- Copies `count` stored bytes. -/
def inflateStored : (count : Nat) → Bits → Array UInt8 → Progress
  | 0, bits, out => (out, .ok bits)
  | count + 1, bits, out =>
    match number 8 bits with
    | .error halt => (out, .error halt)
    | .ok (byte, rest) => inflateStored count rest (out.push (UInt8.ofNat byte))

/-- Reads the size of a stored block, which is written twice, the second time complemented. -/
def readStoredSize : Decoder Nat := do
  align
  let size ← number 16
  let complement ← number 16
  if size + complement = 65535 then return size else throw .malformed

/-- The order in which the word lengths of the code for word lengths are sent. -/
def lengthOrder : List Nat :=
  [16, 17, 18, 0, 8, 7, 9, 6, 10, 5, 11, 4, 12, 3, 13, 2, 14, 1, 15]

/-- Reads `count` numbers of three bits. -/
def readTriples : (count : Nat) → Decoder (List Nat)
  | 0 => return []
  | count + 1 => do return (← number 3) :: (← readTriples count)

/-- Reads the size of a run of word lengths. -/
def readRun (symbol : Nat) : Decoder Nat :=
  if symbol = 16 then do return 3 + (← number 2)
  else if symbol = 17 then do return 3 + (← number 3)
  else do return 11 + (← number 7)

theorem consumes_readRun (symbol : Nat) : (readRun symbol).Consumes := by
  unfold readRun
  split
  · exact (consumes_number _).bind fun _ => Decoder.consumes_pure _
  · split <;> exact (consumes_number _).bind fun _ => Decoder.consumes_pure _

/-- Reads word lengths up to `count` of them, given those read before, the last one first. Symbol 16
repeats the last length, 17 and 18 stand for runs of zeros; a run may not pass the end. -/
def readLengths (code : Code) (count : Nat) (known : List Nat) : Decoder (List Nat) := fun bits =>
  if known.length = count then .ok (known.reverse, bits)
  else if count < known.length then .error .malformed
  else
    match _read : code.read bits with
    | .error halt => .error halt
    | .ok (symbol, rest) =>
      if symbol < 16 then readLengths code count (symbol :: known) rest
      else if symbol = 16 ∧ known = [] then .error .malformed
      else
        match _run : readRun symbol rest with
        | .error halt => .error halt
        | .ok (size, rest') =>
          let repeated := if symbol = 16 then known.headD 0 else 0
          readLengths code count (List.replicate size repeated ++ known) rest'
termination_by bits => bits.length
decreasing_by
  · exact Code.length_of_read _read
  · exact Nat.lt_of_le_of_lt (consumes_readRun _ _run) (Code.length_of_read _read)

/-- The canonical code for word lengths that were read; lengths without a code are malformed. -/
def codeOf (lengths : List Nat) (sparse : Bool) : Decoder Code :=
  match Code.ofLengths? lengths sparse with
  | some code => return code
  | none => throw .malformed

/-- The code for word lengths, from the lengths of its own words as they are sent. -/
def lengthCode (sent : List Nat) : Decoder Code :=
  codeOf ((List.range 19).map fun symbol => ((lengthOrder.zip sent).lookup symbol).getD 0) false

/-- Reads the two codes of a block that transmits them. -/
def readCodes : Decoder (Code × Code) := do
  let literals := 257 + (← number 5)
  let distances := 1 + (← number 5)
  let sent := 4 + (← number 4)
  if 286 < literals ∨ 30 < distances then throw .malformed
  let code ← lengthCode (← readTriples sent)
  let lengths ← readLengths code (literals + distances) []
  return (← codeOf (lengths.take literals) true, ← codeOf (lengths.drop literals) true)

/-- The code for bytes and lengths of a block that transmits none. -/
def fixedLiterals : Code :=
  (Code.ofLengths? (List.replicate 144 8 ++ List.replicate 112 9 ++ List.replicate 24 7 ++
    List.replicate 8 8) true).getD {}

/-- The code for distances of a block that transmits none. -/
def fixedDistances : Code := (Code.ofLengths? (List.replicate 32 5) true).getD {}

/-- Decodes the body of a block of the given kind. -/
def inflateBlock (kind : Nat) (bits : Bits) (out : Array UInt8) : Progress :=
  match kind with
  | 0 =>
    match readStoredSize bits with
    | .error halt => (out, .error halt)
    | .ok (size, rest) => inflateStored size rest out
  | 1 => inflateSymbols fixedLiterals fixedDistances bits out
  | 2 =>
    match readCodes bits with
    | .error halt => (out, .error halt)
    | .ok ((literals, distances), rest) => inflateSymbols literals distances rest out
  | _ => (out, .error .malformed)

/-! ## Every step uses up bits -/

theorem length_of_inflateSymbols {literals distances : Code} {bits rest : Bits}
    {out done : Array UInt8} (h : inflateSymbols literals distances bits out = (done, .ok rest)) :
    rest.length ≤ bits.length := by
  fun_induction inflateSymbols literals distances bits out with
  | case1 => simp at h
  | case2 _ _ _ _ read _ ih => exact Nat.le_trans (ih h) (Code.consumes_read _ read)
  | case3 _ _ _ read =>
    obtain ⟨-, h⟩ := Prod.mk.inj h
    obtain rfl := Except.ok.inj h
    exact Code.consumes_read _ read
  | case4 => simp at h
  | case5 _ _ _ _ read _ _ _ _ _ run ih =>
    have := ih h
    have := Code.consumes_read _ read
    have := consumes_readMatch _ _ run
    omega

theorem length_of_inflateStored {count : Nat} {bits rest : Bits} {out done : Array UInt8}
    (h : inflateStored count bits out = (done, .ok rest)) : rest.length ≤ bits.length := by
  fun_induction inflateStored count bits out with
  | case1 =>
    obtain ⟨-, h⟩ := Prod.mk.inj h
    obtain rfl := Except.ok.inj h
    exact Nat.le_refl _
  | case2 => simp at h
  | case3 _ _ _ _ _ read ih =>
    have := ih h
    have := length_of_number read
    omega

theorem consumes_readStoredSize : readStoredSize.Consumes :=
  consumes_align.bind fun _ => (consumes_number _).bind fun _ => (consumes_number _).bind fun _ => by
    split
    · exact Decoder.consumes_pure _
    · exact Decoder.consumes_throw _

theorem consumes_readTriples (count : Nat) : (readTriples count).Consumes := by
  induction count with
  | zero => exact Decoder.consumes_pure _
  | succ count ih =>
    exact (consumes_number _).bind fun _ => ih.bind fun _ => Decoder.consumes_pure _

theorem consumes_readLengths (code : Code) (count : Nat) (known : List Nat) :
    (readLengths code count known).Consumes := by
  intro bits lengths rest h
  fun_induction readLengths code count known bits with
  | case1 => simp_all
  | case2 => simp at h
  | case3 => simp at h
  | case4 _ _ _ _ _ _ read _ ih => exact Nat.le_trans (ih h) (Code.consumes_read _ read)
  | case5 => simp at h
  | case6 => simp at h
  | case7 _ _ _ _ _ _ read _ _ _ _ run _ ih =>
    have := ih h
    have := Code.consumes_read _ read
    have := consumes_readRun _ run
    omega

theorem consumes_codeOf (lengths : List Nat) (sparse : Bool) : (codeOf lengths sparse).Consumes := by
  unfold codeOf
  split
  · exact Decoder.consumes_pure _
  · exact Decoder.consumes_throw _

theorem consumes_readCodes : readCodes.Consumes := by
  refine (consumes_number _).bind fun _ => (consumes_number _).bind fun _ =>
    (consumes_number _).bind fun _ => ?_
  split
  · exact Decoder.consumes_throw _
  · exact (consumes_readTriples _).bind fun _ => (consumes_codeOf _ _).bind fun _ =>
      (consumes_readLengths _ _ _).bind fun _ => (consumes_codeOf _ _).bind fun _ =>
        (consumes_codeOf _ _).bind fun _ => Decoder.consumes_pure _

theorem length_of_inflateBlock {kind : Nat} {bits rest : Bits} {out done : Array UInt8}
    (h : inflateBlock kind bits out = (done, .ok rest)) : rest.length ≤ bits.length := by
  unfold inflateBlock at h
  split at h
  · split at h
    · simp at h
    · rename_i read
      exact Nat.le_trans (length_of_inflateStored h) (consumes_readStoredSize read)
  · exact length_of_inflateSymbols h
  · split at h
    · simp at h
    · rename_i read
      exact Nat.le_trans (length_of_inflateSymbols h) (consumes_readCodes read)
  · simp at h

/-! ## Streams of blocks -/

/-- Decodes blocks up to the one that is marked as the last. -/
def inflate (bits : Bits) (out : Array UInt8) : Progress :=
  match _head : number 3 bits with
  | .error halt => (out, .error halt)
  | .ok (head, body) =>
    match _block : inflateBlock (head / 2) body out with
    | (out, .error halt) => (out, .error halt)
    | (out, .ok rest) => if head % 2 = 1 then (out, .ok rest) else inflate rest out
termination_by bits.length
decreasing_by
  have := length_of_number _head
  have := length_of_inflateBlock _block
  omega

end RevisionLog.Zlib
