import RevisionLog.Buffer

/-!
# Disks

A log lives in files, and its answers depend only on what these hold at the time of a question. A
`Disk` is that: for each path, the bytes of the file or the fault of opening it. A file that does
not exist reads as empty. `Disk.open` gives a buffer of a whole file.
-/

namespace RevisionLog

/-- What the files hold at some time. -/
abbrev Disk := String → Except Fault Bytes

/-- The length from which files are mapped into memory rather than copied there, unless another is
chosen. A buffer shows the same bytes either way. -/
def defaultMapThreshold : Nat := 100 * 1024

/-- A buffer of the whole file at a path. -/
def Disk.open (disk : Disk) (path : String) : Except Fault Buffer := do
  return .ofBytes (← disk path)

end RevisionLog
