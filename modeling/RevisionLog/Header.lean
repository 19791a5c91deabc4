import RevisionLog.Fault

/-!
# Headers and flags

The first word of an index is its header: the format version in the low half and the optional
features of the log in the high half. The low half of a record's offset field holds flags of the
revision, of which only some bits have a meaning. `Header.parse` accepts known versions and
features only, flags are kept whatever their bits.
-/

namespace RevisionLog

/-- The optional properties of a log. -/
structure Features where
  /-- Each record is followed by its chunk, and there is no data file. -/
  inline : Bool := false
  /-- A patch applies to the text of its base, and not of the revision before it. -/
  generalDelta : Bool := false
  deriving DecidableEq

namespace Features

/-- The features that a half word stands for, unless it has a bit of no known feature. -/
def ofBits? (bits : UInt16) : Option Features :=
  if bits < 4 then some ⟨bits &&& 1 ≠ 0, bits &&& 2 ≠ 0⟩ else none

/-- The half word that stands for the features. -/
def bits (features : Features) : UInt16 :=
  (if features.inline then 1 else 0) + (if features.generalDelta then 2 else 0)

/-- All known features. -/
def all : Features := ⟨true, true⟩

/-- The names of the features, in the order of their bits. -/
def names (features : Features) : List String :=
  (if features.inline then ["INLINE"] else []) ++
    (if features.generalDelta then ["GENERAL_DELTA"] else [])

end Features

/-- The format versions that a header can name. -/
inductive Version
  | zero
  | ng
  deriving DecidableEq

/-- The number of a version in the header. -/
def Version.number : Version → Nat
  | .zero => 0
  | .ng => 1

/-- What the first word of an index says. -/
structure Header where
  version : Version := .ng
  features : Features := {}
  deriving DecidableEq

namespace Header

/-- The header in a word: a known version, known features, and none of them in version 0. -/
def parse (word : Int32) : Except Fault Header := do
  let number := word.toUInt32.toNat
  let version ← match number % 65536 with
    | 0 => .ok .zero
    | 1 => .ok .ng
    | unknown => .error (.unsupportedVersion unknown)
  match Features.ofBits? (UInt16.ofNat (number / 65536)) with
  | none => .error (.unknownFeatures (number / 65536))
  | some features =>
    if version = .zero ∧ features ≠ {} then .error .featuresOfVersionZero
    else .ok ⟨version, features⟩

/-- Whether records and chunks share the index file. -/
def isInline (header : Header) : Bool := header.features.inline

/-- Whether a patch applies to the text of its base. -/
def isGeneralDelta (header : Header) : Bool := header.features.generalDelta

end Header

/-- The flags of a revision: sixteen bits, all of them kept. -/
structure Flags where
  bits : UInt16
  deriving DecidableEq

namespace Flags

/-- The bits that have a meaning, with their names, lowest first: content stored elsewhere, a
revision of a narrowed history, and content that was removed. -/
def table : List (UInt16 × String) :=
  [(0x2000, "EXTSTORED"), (0x4000, "ELLIPSIS"), (0x8000, "CENSORED")]

/-- All flags that have a meaning. -/
def all : Flags := ⟨0xe000⟩

/-- The names of the flags that are set and have a meaning. -/
def names (flags : Flags) : List String :=
  (table.filter fun flag => flags.bits &&& flag.1 ≠ 0).map (·.2)

/-- The flags without the bits that have no meaning. -/
def known (flags : Flags) : Flags := ⟨flags.bits &&& all.bits⟩

/-- The flags, if all of their bits have a meaning. -/
def strict? (flags : Flags) : Option Flags :=
  if flags.known = flags then some flags else none

end Flags

end RevisionLog
