import RevisionLog.Zlib.Deflate

/-!
# Compressed streams

A zlib stream is a two-byte header, a deflate stream and a checksum of the bytes it decodes to.
`Stream.decode` gives those bytes together with how the stream ends: complete, too early, or
malformed. Whatever follows a complete stream is ignored.
-/

namespace RevisionLog.Zlib

/-- How a compressed stream ends. -/
inductive Ending
  | complete
  | incomplete
  | malformed
  deriving DecidableEq

/-- What a compressed stream decodes to, up to where it ends. -/
structure Stream where
  output : Array UInt8
  ending : Ending
  deriving DecidableEq

namespace Stream

/-- The Adler-32 checksum: the sum of the bytes plus one, and the sum of its values so far, both
modulo 65521. -/
def checksum (bytes : Array UInt8) : Nat :=
  let (low, high) := bytes.foldl
    (fun (low, high) b => let low := (low + b.toNat) % 65521; (low, (high + low) % 65521)) (1, 0)
  high * 65536 + low

/-- Whether two bytes are the header of a stream that needs no dictionary and no window above
32 KiB. -/
def isHeader (method flags : UInt8) : Bool :=
  (method.toNat * 256 + flags.toNat) % 31 = 0 && method &&& 0x0f = 8 && method >>> 4 ≤ 7 &&
    flags &&& 0x20 = 0

/-- Reads the checksum behind the last block, its high byte first. -/
def readChecksum : Decoder Nat := do
  align
  let a ← number 8
  let b ← number 8
  let c ← number 8
  let d ← number 8
  return ((a * 256 + b) * 256 + c) * 256 + d

/-- How a stream ends whose blocks decode to `output` and stop as given. -/
def endingAfter (output : Array UInt8) (stop : Except Halt Bits) : Ending :=
  match stop >>= readChecksum with
  | .ok (sum, _) => if sum = checksum output then .complete else .malformed
  | .error .short => .incomplete
  | .error .malformed => .malformed

/-- Decodes a byte string as a zlib stream. -/
def decode : Bytes → Stream
  | method :: flags :: body =>
    if isHeader method flags then
      let (output, stop) := inflate (.ofBytes body) #[]
      ⟨output, endingAfter output stop⟩
    else ⟨#[], .malformed⟩
  | _ => ⟨#[], .incomplete⟩

end Stream

end RevisionLog.Zlib
