/-!
# Revision numbers

Revisions of one log are numbered from 0 in the order in which they were added. Callers name
them by signed 32-bit words, some of which are reserved: `tip` is the most recent revision of a
log, the others never name a stored one.
-/

namespace RevisionLog

/-- A revision number as callers and records give it. -/
abbrev Revision := Int32

namespace Revision

/-- The most recent revision of a log. -/
def tip : Revision := -3

/-- The working copy, which a log only passes on. -/
def workingCopy : Revision := -2

/-- No revision, such as a parent that is missing. -/
def none : Revision := -1

/-- An invalid or unknown revision; lookups that find nothing answer it. -/
def bad : Revision := Int32.minValue

/-- The text of a revision in messages, reserved numbers by name. -/
def describe (revision : Revision) : String :=
  if revision = bad then "UNKNOWN"
  else if revision = tip then "TIP"
  else if revision = workingCopy then "WORKING-COPY"
  else if revision = none then "NO REVISION"
  else toString revision.toInt

/-- The number that `revision` names in a log of `count` revisions: the last one for `tip`, and
any other number itself, whether the log has it or not. For `2 ^ 31` revisions, whose number is
negative as a word, the word before it is still that of the last one, because words wrap around. -/
def resolve (revision : Revision) (count : Nat) : Int :=
  if revision = tip then count - 1 else revision.toInt

end Revision

end RevisionLog
