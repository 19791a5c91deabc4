import RevisionLog.Text.Hex
import RevisionLog.Text.Quoted

/-!
# Faults

A fault says why stored bytes could not be read: a reader ran past their end, a compressed stream
is damaged, a patch, an index or a metadata block breaks its format, or the file itself refused.
`Fault.message` gives the wording and `Fault.kind` the class of a fault.
-/

namespace RevisionLog

/-- Why stored bytes could not be read. -/
inductive Fault
  /-- A read of `wanted` bytes at `position` found only `left`. -/
  | shortRead (wanted position left : Nat)
  /-- Skipping `count` bytes would pass the end. -/
  | skipPastEnd (count : Nat)
  /-- A seek to `target` in `length` bytes. -/
  | seekPastEnd (target length : Nat)
  /-- A window of `count` bytes at `offset` of `length` bytes. -/
  | windowPastEnd (offset count length : Nat)
  /-- A read ran off the end of a decompressed stream. -/
  | inflatedEnd
  /-- A skip ran off the end of a decompressed stream. -/
  | inflatedSkip
  /-- A compressed stream ends too early. -/
  | incompleteStream
  /-- A compressed stream is malformed. -/
  | corruptStream
  /-- A fragment claims a negative number of bytes. -/
  | negativeFragment (length : Int32)
  /-- A fragment claims `length` bytes where only `left` follow. -/
  | fragmentPastEnd (length : Int32) (left : Nat)
  /-- A fragment does not lie behind the one before it and inside the base. -/
  | fragmentOutOfOrder (start stop : Int32) (baseLength : Nat)
  /-- A patch makes a text of another length than the record says. -/
  | patchedLength (computed : Int) (declared : Int32)
  /-- A header of an unknown version. -/
  | unsupportedVersion (version : Nat)
  /-- A header with feature bits that are not known. -/
  | unknownFeatures (bits : Nat)
  /-- A header of version 0 with feature bits. -/
  | featuresOfVersionZero
  /-- An index of a version that cannot be read. -/
  | indexVersion
  /-- The index claims a chunk of negative length. -/
  | negativeChunk (revision : Int32)
  /-- The record of a revision claims a chunk of negative length. -/
  | negativeRecordChunk (length : Int32) (revision : Nat)
  /-- The index gives a base that is neither the revision nor an earlier one. -/
  | baseOutOfRange (base revision : Int32)
  /-- No marker closes a metadata block. -/
  | unclosedMetadata
  /-- A metadata line without a colon. -/
  | metadataWithoutKey (line : String)
  /-- The name leads to a directory. -/
  | isDirectory
  /-- The name leads below a regular file. -/
  | notDirectory
  /-- The name holds a NUL character. -/
  | nulInName
  deriving DecidableEq

namespace Fault

/-- The classes of faults. -/
inductive Kind
  | unexpectedEnd
  | invalidData
  | invalidInput
  | isDirectory
  | notDirectory
  deriving DecidableEq

/-- The class of a fault. -/
def kind : Fault → Kind
  | shortRead .. | skipPastEnd _ | seekPastEnd .. | windowPastEnd .. | inflatedEnd | inflatedSkip
  | incompleteStream => .unexpectedEnd
  | corruptStream | nulInName => .invalidInput
  | isDirectory => .isDirectory
  | notDirectory => .notDirectory
  | _ => .invalidData

/-- The wording of a fault. -/
def message : Fault → String
  | shortRead wanted position left =>
    s!"need {wanted} bytes at {position} but only {left} remain"
  | skipPastEnd count => s!"cannot skip {count} bytes past end of data"
  | seekPastEnd target length => s!"seek to {target} past end of data ({length})"
  | windowPastEnd offset count length => s!"window {offset}+{count} exceeds data of length {length}"
  | inflatedEnd => "failed to fill whole buffer"
  | inflatedSkip => "seek past end of inflated data"
  | incompleteStream => "incomplete deflate stream"
  | corruptStream => "corrupt deflate stream"
  | negativeFragment length => s!"negative patch fragment length {length}"
  | fragmentPastEnd length left =>
    s!"patch fragment length {length} exceeds the {left} bytes left"
  | fragmentOutOfOrder start stop baseLength =>
    s!"patch fragment [{start}..{stop}) out of order or past base of length {baseLength}"
  | patchedLength computed declared =>
    s!"patch produces {computed} bytes but {declared} were declared"
  | unsupportedVersion version => s!"unsupported revlog version {version}"
  | unknownFeatures bits => "unknown revlog features " ++ Hex.ofNat bits
  | featuresOfVersionZero => "revlog version 0 does not support features"
  | indexVersion => "only RevlogNG indexes can be read"
  | negativeChunk revision => s!"negative compressed length at revision {revision}"
  | negativeRecordChunk length revision =>
    s!"negative compressed length {length} at revision {revision}"
  | baseOutOfRange base revision => s!"base revision {base} out of range at revision {revision}"
  | unclosedMetadata => "metadata is not closed properly"
  | metadataWithoutKey line => "metadata line without key: " ++ Text.quoted line
  | isDirectory => "Is a directory (os error 21)"
  | notDirectory => "Not a directory (os error 20)"
  | nulInName => "file name contained an unexpected NUL byte"

end Fault

end RevisionLog
