import RevisionLog.FileLog

/-!
# Stores

A store is a directory of logs: the change log, the manifest, and one log for each tracked file
below `data`. The names of tracked files are encoded so that they are valid and distinct where
case does not count: capital letters and underscores get an underscore in front, bytes outside
printable ASCII and reserved ones become `~` and two digits, and a directory that looks like a file
of a log gets a suffix (`Store.encodePath`).
-/

namespace RevisionLog

/-- A directory of logs, opened with some options. -/
structure Store where
  root : String
  options : Options := {}
  deriving DecidableEq

namespace Store

/-- The characters that some file systems reserve: `\ : * ? " < > |`. -/
def reserved : Bytes := [92, 58, 42, 63, 34, 60, 62, 124]

/-- The encoding of a byte of a name. -/
def encodeByte (b : UInt8) : Bytes :=
  if b < 32 ∨ 126 ≤ b ∨ b ∈ reserved then 126 :: Hex.pair b
  else if 65 ≤ b ∧ b ≤ 90 then [95, b + 32]
  else if b = 95 then [95, 95]
  else [b]

/-- The encoding of a name. -/
def encodeName (name : Bytes) : Bytes := name.flatMap encodeByte

/-- A directory that is named like an index, a data file or one with the suffix gets the suffix
`.hg`. -/
def markDirectory (name : Bytes) : Bytes :=
  if [".hg", ".i", ".d"].any fun suffix => (Text.utf8 suffix).isSuffixOf name then
    name ++ Text.utf8 ".hg"
  else name

/-- The components of the path of the index of a tracked file, below the directory for all of
them. -/
def encodeComponents : List Bytes → List Bytes
  | [] => []
  | [file] => [encodeName (file ++ Text.utf8 ".i")]
  | directory :: rest => encodeName (markDirectory directory) :: encodeComponents rest

/-- The path of the index of a tracked file in a store. Slashes at the ends of the name and
repeated ones do not count. -/
def encodePath (path : String) : String :=
  let names := (path.splitOn "/").filter (· ≠ "")
  "/".intercalate ("data" :: (encodeComponents (names.map Text.utf8)).map Hex.toString)

/-- Opens the log with an index in the store. -/
def openLog (store : Store) (disk : Disk) (file : String) : Except Failure Handle :=
  Handle.open disk (Path.join store.root file) store.options

/-- Opens the change log. -/
def changelog (store : Store) (disk : Disk) : Except Failure Handle :=
  store.openLog disk "00changelog.i"

/-- Opens the manifest. -/
def manifest (store : Store) (disk : Disk) : Except Failure Handle :=
  store.openLog disk "00manifest.i"

/-- Opens the log of a tracked file. -/
def file (store : Store) (disk : Disk) (path : String) : Except Failure FileHandle :=
  return ⟨← store.openLog disk (encodePath path), path⟩

end Store

end RevisionLog
