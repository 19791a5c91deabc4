import RevisionLog.Proofs.Log.Text
import RevisionLog.Proofs.Patch.Reused

/-!
# Texts made of what a visitor has left

A visitor may do with a text whatever it likes, and what it leaves is the base of the next patch. If
a log `Log.Decodes` a revision, its text can be had, and then all that what is left of the previous
revision can do to it is to be spoiled for its patch: `Log.spoiled?` is the fault. Otherwise the
text is made as if there had been no visitor (`Log.Decodes.contentAfter_eq`).
-/

namespace RevisionLog

open Reader (At Has Yields)

namespace Log

/-- The fault that the patch of a record runs into, if it is one on the previous revision and what
is left of that is spoiled. -/
def spoiled? (log : Log) (files : Files) (record : Record) : Option (Nat × Reader) → Option Fault
  | none => none
  | some (revision, left) =>
    if record.isLiteral ∨ log.deltaParent record ≠ revision then none
    else do
      let patch ← (log.decoded? files record).bind Patch.decode?
      let length ← left.length.toOption
      left.spoiled? (← patch.firstKept? length 0)

/-- The revision has a record and a text. -/
structure Decodes (log : Log) (files : Files) (revision : Nat) (record : Record) (text : Bytes) :
    Prop where
  known : revision < log.count
  found : log.recordIn files.index revision = .ok record
  number : record.revision = revision
  text : log.text? files revision = some text

/-- What is left of the previous revision, if anything, is a reader that is kept in this way. -/
def Kept (log : Log) (files : Files) (keeps : Bytes → Reader → Prop)
    (previous : Option (Nat × Reader)) : Prop :=
  ∀ ⦃number reader⦄, previous = some (number, reader) →
    ∃ text, log.text? files number = some text ∧ keeps text reader

variable {log : Log} {disk : Disk} {files : Files} {revision : Nat} {record : Record} {text : Bytes}
  {keeps : Bytes → Reader → Prop} {previous : Option (Nat × Reader)}

/-- A reader that is in step with its text is not spoiled for any patch. -/
theorem spoiled?_of_at {position : Nat} {left : Reader} (stand : At text position left)
    (record : Record) (number : Nat) :
    log.spoiled? files record (some (number, left)) = none := by
  rw [spoiled?]
  split
  · rfl
  · simp [stand.not_spoiled]

theorem kept_none : log.Kept files keeps none := nofun

theorem kept_some {reader : Reader} (told : log.text? files revision = some text)
    (kept : keeps text reader) : log.Kept files keeps (some (revision, reader)) := by
  rintro number other same
  cases same
  exact ⟨text, told, kept⟩

/-- A text is decoded, or patched from that of an earlier revision. -/
theorem Decodes.proper (decodes : log.Decodes files revision record text)
    (patch : ¬record.isLiteral) :
    0 ≤ log.deltaParent record ∧ log.deltaParent record < revision := by
  have told := decodes.text
  rw [text?, decodes.found] at told
  simp only [patch, Bool.false_eq_true, if_false] at told
  split at told
  · assumption
  · cases told

/-- A patch that was decoded is applied to the base. -/
theorem patched_of_read {chunk : Reader} {patch : Patch}
    (read : (Patch.read chunk).1 = .ok patch) (base : Reader) :
    log.patched record chunk base =
      ((Patch.apply record.textLength patch base).1.mapError
        (.file log.contentFile (.applyPatch record.revision))).map Reader.ofBytes := by
  rw [patched, read]
  show Except.mapError _ (Patch.apply record.textLength patch base).1 >>= _ = _
  cases (Patch.apply record.textLength patch base).1 <;> rfl

/-- A text that nothing was left for is made afresh. -/
theorem Decodes.contentAfter_none (sound : files.Sound)
    (decodes : log.Decodes files revision record text) :
    ∃ reader, log.contentAfter files record none = .ok reader ∧ At text 0 reader := by
  have yields := contentAfter_yields sound retained_none decodes.found decodes.known decodes.proper
  rw [decodes.text] at yields
  exact yields.eq_ok

/-- **A text is made of what is left of the previous revision**, just as it would be made afresh,
unless it is a patch and what is left is spoiled for it. -/
theorem Decodes.contentAfter_eq (sound : files.Sound)
    (decodes : log.Decodes files revision record text) (kept : log.Kept files Has previous) :
    log.contentAfter files record previous =
      (log.spoiled? files record previous).elim (log.contentAfter files record none)
        fun fault => .error (.file log.contentFile (.applyPatch record.revision) fault) := by
  rcases previous with _ | ⟨number, left⟩
  · rfl
  by_cases literal : record.isLiteral
  · rw [contentAfter_of_literal literal, contentAfter_of_literal literal, spoiled?,
      if_pos (.inl literal)]
    rfl
  by_cases other : log.deltaParent record ≠ number
  · rw [spoiled?, if_pos (.inr other), contentAfter, contentAfter, baseAfter,
      if_neg (Ne.symm other)]
    rfl
  · have parent : log.deltaParent record = number := Decidable.not_not.1 other
    obtain ⟨base, before, has⟩ := kept rfl
    have told := text?_of_patch decodes.found literal (decodes.proper literal)
    rw [decodes.text, parent, Int.toNat_natCast, before, Option.bind_some, patched?] at told
    obtain ⟨patch, decoded, applies⟩ := Option.bind_eq_some_iff.1 told.symm
    have afresh := toOption_contentAfter sound retained_none literal
      (hasPlace_of_earlier decodes.known (decodes.proper literal)) (decodes.proper literal).1
    rw [parent, Int.toNat_natCast, before, Option.bind_some, patched?, decoded, Option.bind_some,
      applies] at afresh
    have yields : Yields (log.decoded? files record) (log.chunk files record).toOption :=
      chunk_yields sound record
    obtain ⟨bytes, stored, read⟩ := Option.bind_eq_some_iff.1 decoded
    rw [stored] at yields
    obtain ⟨chunk, found, start⟩ := yields.eq_ok
    have patchRead := Patch.toOption_read start
    rw [read, Outcome.toOption_eq_some] at patchRead
    have applied := Patch.apply_of_has (Patch.storable_of_decode? read) applies has
    have made : log.contentAfter files record (some (number, left)) =
        log.patched record chunk left := by
      rw [contentAfter, found, baseAfter, if_pos parent.symm]
      show (if record.isLiteral then _ else _) = _
      rw [if_neg literal]
      rfl
    have spoil : log.spoiled? files record (some (number, left)) =
        (patch.firstKept? base.length 0).bind (left.spoiled? ·) := by
      rw [spoiled?, if_neg (by rintro (full | apart) <;> contradiction), decoded, has.length_eq]
      rfl
    rw [made, patched_of_read patchRead, applied, spoil, Outcome.toOption_eq_some.1 afresh]
    cases (patch.firstKept? base.length 0).bind (left.spoiled? ·) <;> rfl

end Log

end RevisionLog
