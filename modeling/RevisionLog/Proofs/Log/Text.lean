import RevisionLog.Log.Iterate
import RevisionLog.Proofs.Outcome
import RevisionLog.Proofs.Patch.Reading
import RevisionLog.Proofs.Patch.Splicing

/-!
# The text of a revision

`Log.text?` is what the text of a revision is by definition: the decoded chunk of a full text, and
for a patch what it makes of the text of its delta parent, which has to be an earlier revision. A
log gets at it in two ways, and both give a reader of just that text.

* `Log.rebuild` collects the chain of patches and replays it. The collected chain is the recursion
  of the definition turned around (`Log.rebuild_of_patch`), hence `Log.rebuild_yields`.
* `Log.contentAfter` uses the reader that it was left of the previous revision, wherever that
  stands, if the previous revision is the delta parent (`Log.contentAfter_yields`).

A text may be missing because a reader turns out to be damaged only when it is read, so an outcome
that `Yields` no text is a failure or a damaged reader.
-/

namespace RevisionLog

open Reader (At Damaged)

namespace Reader

/-- The reader has the text somewhere, or is damaged if there is none. -/
inductive Retains : Option Bytes → Reader → Prop
  | text {text : Bytes} {position : Nat} {reader : Reader} (there : At text position reader) :
      Retains (some text) reader
  | damaged {reader : Reader} (damaged : Damaged reader) : Retains none reader

/-- What came out is a reader that retains the text; it may be missing if there is no text. -/
inductive Provides : Option Bytes → Option Reader → Prop
  | retained {text? : Option Bytes} {reader : Reader} (retained : Retains text? reader) :
      Provides text? (some reader)
  | failed : Provides none none

/-- What came out is a reader at the start of the text. If there is no text it is nothing or a
damaged reader. -/
inductive Yields : Option Bytes → Option Reader → Prop
  | text {text : Bytes} {reader : Reader} (start : At text 0 reader) :
      Yields (some text) (some reader)
  | damaged {reader : Reader} (damaged : Damaged reader) : Yields none (some reader)
  | failed : Yields none none

variable {text? : Option Bytes} {reader : Reader} {reader? : Option Reader}

theorem Yields.provides (h : Yields text? reader?) : Provides text? reader? := by
  cases h with
  | text start => exact .retained (.text start)
  | damaged damaged => exact .retained (.damaged damaged)
  | failed => exact .failed

theorem Yields.retains (h : Yields text? (some reader)) : Retains text? reader := by
  cases h with
  | text start => exact .text start
  | damaged damaged => exact .damaged damaged

/-- Where there is a text, a reader of it comes out. -/
theorem Yields.eq_ok {text : Bytes} {outcome : Except Failure Reader}
    (h : Yields (some text) outcome.toOption) :
    ∃ reader, outcome = .ok reader ∧ At text 0 reader := by
  cases outcome with
  | error failure => cases h
  | ok reader =>
    cases h with
    | text start => exact ⟨reader, rfl, start⟩

/-- Reading to the end gives the text if there is one. -/
theorem Yields.bind_rest (h : Yields text? reader?) :
    (reader?.bind fun reader => (Reader.rest reader).1.toOption) = text? := by
  cases h with
  | text start =>
    obtain ⟨moved, run, -⟩ := start.rest
    simp [Except.toOption, run]
  | damaged damaged =>
    obtain ⟨fault, run⟩ := damaged.rest
    simp [Except.toOption, run]
  | failed => rfl

theorem yields_ofBytes (text? : Option Bytes) : Yields text? (text?.map ofBytes) := by
  cases text? with
  | none => exact .failed
  | some text => exact .text (at_ofBytes text)

/-- An inflater that has just been made shows what its bytes decode to. -/
theorem yields_inflating (bytes : Bytes) :
    Yields (Reader.rest (.inflating (.ofBytes bytes))).1.toOption
      (some (.inflating (.ofBytes bytes))) := by
  by_cases complete : (Zlib.Stream.decode bytes).ending = .complete
  · have start : At (Zlib.Stream.decode bytes).output.toList 0 (.inflating (.ofBytes bytes)) := by
      have decoded : Zlib.Stream.decode bytes =
          ⟨(Zlib.Stream.decode bytes).output.toList.toArray, .complete⟩ := by
        rw [Array.toArray_toList, ← complete]
      rw [Inflater.ofBytes, decoded]
      exact .inflating (Nat.zero_le _)
    obtain ⟨moved, run, -⟩ := start.rest
    rw [run]
    exact .text start
  · have damaged : Damaged (.inflating (.ofBytes bytes)) := .inflating complete
    obtain ⟨fault, run⟩ := damaged.rest
    rw [run]
    exact .damaged damaged

theorem yields_plain {buffer : Buffer} (fits : buffer.Fits) (start : buffer.position = 0) :
    Yields (Reader.rest (.plain buffer)).1.toOption (some (.plain buffer)) := by
  have start : At buffer.slice 0 (.plain buffer) := .plain fits rfl start (Nat.zero_le _)
  obtain ⟨moved, run, -⟩ := start.rest
  rw [run]
  exact .text start

end Reader

open Reader (Yields Provides Retains)

/-- The buffers of the files that could be opened are whole windows. -/
structure Files.Sound (files : Files) : Prop where
  index : files.index.Fits
  data : ∀ {data : Buffer}, files.data = .ok data → data.Fits

namespace Log

theorem sound_of_openFiles {log : Log} {files : Files} {disk : Disk}
    (h : log.openFiles disk = .ok files) : files.Sound := by
  have fits : ∀ {path : String} {wrap : Fault → Failure} {buffer : Buffer},
      (disk.open path).mapError wrap = .ok buffer → buffer.Fits := by
    intro path wrap buffer opened
    obtain ⟨bytes, -, same⟩ := Outcome.bind_eq_ok.1 (Outcome.mapError_eq_ok.1 opened)
    cases same
    exact Buffer.fits_ofBytes bytes
  obtain ⟨index, opened, same⟩ := Outcome.bind_eq_ok.1 h
  cases same
  exact ⟨fits opened, fits⟩

/-! ## The definition -/

/-- What the chunk of a record decodes to. -/
def decoded? (log : Log) (files : Files) (record : Record) : Option Bytes :=
  (log.chunk files record).toOption.bind fun chunk => (Reader.rest chunk).1.toOption

/-- The text that the patch of a record makes of a base. -/
def patched? (log : Log) (files : Files) (record : Record) (base : Bytes) : Option Bytes :=
  ((log.decoded? files record).bind Patch.decode?).bind fun patch =>
    patch.applied? record.textLength base

/-- The text of a revision. -/
def text? (log : Log) (files : Files) (revision : Nat) : Option Bytes :=
  match log.recordIn files.index revision with
  | .error _ => none
  | .ok record =>
    if record.isLiteral then log.decoded? files record
    else
      let parent := log.deltaParent record
      if _earlier : 0 ≤ parent ∧ parent < revision then
        (log.text? files parent.toNat).bind (log.patched? files record)
      else none
termination_by revision
decreasing_by omega

variable {log : Log} {files : Files} {revision : Nat} {record : Record}

theorem text?_of_literal (found : log.recordIn files.index revision = .ok record)
    (literal : record.isLiteral) : log.text? files revision = log.decoded? files record := by
  rw [text?, found]
  simp [literal]

theorem text?_of_patch (found : log.recordIn files.index revision = .ok record)
    (patch : ¬record.isLiteral)
    (earlier : 0 ≤ log.deltaParent record ∧ log.deltaParent record < revision) :
    log.text? files revision =
      (log.text? files (log.deltaParent record).toNat).bind (log.patched? files record) := by
  rw [text?, found]
  simp [patch, earlier]

/-! ## Chunks -/

theorem fits_storedChunk {stored : Buffer} (sound : files.Sound)
    (h : log.storedChunk files record = .ok stored) : stored.Fits ∧ stored.position = 0 := by
  unfold storedChunk at h
  split at h
  · have window := Outcome.mapError_eq_ok.1 h
    exact ⟨sound.index.window window, by rw [(Buffer.window_eq_ok window).2]⟩
  · obtain ⟨data, opened, h⟩ := Outcome.bind_eq_ok.1 h
    have window := Outcome.mapError_eq_ok.1 h
    exact ⟨(sound.data opened).window window, by rw [(Buffer.window_eq_ok window).2]⟩

/-- The chunk of a record is a reader at the start of what it decodes to. -/
theorem chunk_yields (sound : files.Sound) (record : Record) :
    Yields (log.decoded? files record) (log.chunk files record).toOption := by
  cases run : log.chunk files record with
  | error failure =>
    rw [decoded?, run]
    exact .failed
  | ok chunk =>
    rw [decoded?, run]
    show Yields (Reader.rest chunk).1.toOption (some chunk)
    obtain ⟨stored, located, read⟩ := Outcome.bind_eq_ok.1 run
    obtain ⟨fits, start⟩ := fits_storedChunk sound located
    split at read
    · cases read
      exact Reader.yields_plain fits start
    · cases read
      exact Reader.yields_inflating _
    · obtain ⟨behind, within, same⟩ := Outcome.bind_eq_ok.1 read
      cases same
      have window := Outcome.mapError_eq_ok.1 within
      exact Reader.yields_plain (fits.window window) (by rw [(Buffer.window_eq_ok window).2])
    · cases read
      exact Reader.yields_plain fits start
    · split at read
      · cases read
      · cases read
        exact Reader.yields_plain fits start

/-- Patching makes the text that the decoded patch makes of the base. -/
theorem toOption_patched {chunk base : Reader} {decoded? base? : Option Bytes} (record : Record)
    (start : Yields decoded? (some chunk)) (retained : Retains base? base) :
    (log.patched record chunk base).toOption =
      (base?.bind fun base => (decoded?.bind Patch.decode?).bind fun patch =>
        patch.applied? record.textLength base).map Reader.ofBytes := by
  have patch : (Patch.read chunk).1.toOption = decoded?.bind Patch.decode? := by
    cases start with
    | text start => exact Patch.toOption_read start
    | damaged damaged => exact Patch.toOption_read_damaged damaged
  have text : ∀ patch, decoded?.bind Patch.decode? = some patch →
      (Patch.apply record.textLength patch base).1.toOption =
        base?.bind (patch.applied? record.textLength) := by
    intro patch decoded
    obtain ⟨bytes, -, read⟩ := Option.bind_eq_some_iff.1 decoded
    cases retained with
    | text there =>
      exact Patch.apply_at record.textLength (Patch.storable_of_decode? read) there
    | damaged damaged => exact Patch.apply_damaged record.textLength patch damaged
  rw [patched, Outcome.toOption_bind, Outcome.toOption_mapError, patch]
  simp only [Outcome.toOption_bind, Outcome.toOption_mapError]
  generalize decoded?.bind Patch.decode? = patch? at text
  cases patch? with
  | none => cases base? <;> rfl
  | some patch =>
    rw [Option.bind_some, text patch rfl]
    cases base? with
    | none => rfl
    | some base =>
      show (patch.applied? record.textLength base).bind _ =
        (patch.applied? record.textLength base).map _
      cases patch.applied? record.textLength base <;> rfl

/-- A chunk and a base make the patched text, whichever of them was found first. -/
theorem toOption_bind_patched (sound : files.Sound) (record : Record) {base? : Option Bytes}
    {reader? : Option Reader} (provided : Provides base? reader?) :
    (reader?.bind fun base => (log.chunk files record).toOption.bind fun chunk =>
        (log.patched record chunk base).toOption) =
      (base?.bind (log.patched? files record)).map Reader.ofBytes := by
  have start : Yields (log.decoded? files record) (log.chunk files record).toOption :=
    chunk_yields sound record
  cases provided with
  | failed => rfl
  | @retained _ base retained =>
    rw [Option.bind_some]
    cases read : (log.chunk files record).toOption with
    | none =>
      have undecoded : log.decoded? files record = none := by rw [decoded?, read]; rfl
      have missing : base?.bind (log.patched? files record) = none := by
        cases base? <;> simp [patched?, undecoded]
      rw [missing]
      rfl
    | some chunk =>
      rw [read] at start
      rw [Option.bind_some, toOption_patched record start retained]
      rfl

/-! ## Walking back and replaying -/

/-- Records that come later are kept behind those that are found. -/
theorem chain_append (revision : Nat) (later : List Record) :
    log.chain files revision later =
      (log.chain files revision []).map fun found => (found.1, found.2 ++ later) := by
  induction revision using Nat.strongRecOn generalizing later with
  | ind revision ih =>
    rw [chain, chain]
    cases log.recordIn files.index revision with
    | error failure => rfl
    | ok record =>
      dsimp only
      by_cases literal : record.isLiteral
      · simp [literal, Except.map]
      · by_cases earlier : 0 ≤ log.deltaParent record ∧ log.deltaParent record < revision
        · simp only [literal, earlier, and_self, dite_true, Bool.false_eq_true, if_false]
          have before : (log.deltaParent record).toNat < revision := by omega
          rw [ih _ before (record :: later), ih _ before [record]]
          cases log.chain files (log.deltaParent record).toNat [] with
          | error failure => rfl
          | ok found => simp [Except.map]
        · simp [literal, earlier, Except.map]

theorem rebuild_of_error {failure : Failure}
    (lost : log.recordIn files.index revision = .error failure) :
    log.rebuild files revision = .error failure := by
  rw [rebuild, chain, lost]
  rfl

theorem rebuild_of_literal (found : log.recordIn files.index revision = .ok record)
    (literal : record.isLiteral) : log.rebuild files revision = log.chunk files record := by
  rw [rebuild, chain, found]
  simp only [literal, if_true]
  show (log.chunk files record >>= fun text => log.replay files text []) = _
  cases log.chunk files record <;> rfl

/-- The chain of a patch is the chain of its parent with the patch at its end. -/
theorem rebuild_of_patch (found : log.recordIn files.index revision = .ok record)
    (patch : ¬record.isLiteral)
    (earlier : 0 ≤ log.deltaParent record ∧ log.deltaParent record < revision) :
    log.rebuild files revision =
      (log.rebuild files (log.deltaParent record).toNat >>= fun base =>
        log.chunk files record >>= fun chunk => log.patched record chunk base) := by
  have walked : log.chain files revision [] =
      (log.chain files (log.deltaParent record).toNat []).map
        fun found => (found.1, found.2 ++ [record]) := by
    rw [chain, found]
    simp only [patch, earlier, and_self, dite_true, Bool.false_eq_true, if_false]
    exact chain_append _ _
  rw [rebuild, rebuild, walked]
  cases log.chain files (log.deltaParent record).toNat [] with
  | error failure => rfl
  | ok chain =>
    obtain ⟨literal, later⟩ := chain
    show (log.chunk files literal >>= fun text => log.replay files text (later ++ [record])) =
      (log.chunk files literal >>= fun text => log.replay files text later) >>= _
    cases log.chunk files literal with
    | error failure => rfl
    | ok text =>
      show log.replay files text (later ++ [record]) = log.replay files text later >>= _
      rw [replay, List.foldlM_append, replay]
      simp

theorem rebuild_of_later (found : log.recordIn files.index revision = .ok record)
    (patch : ¬record.isLiteral)
    (later : ¬(0 ≤ log.deltaParent record ∧ log.deltaParent record < revision)) :
    log.rebuild files revision =
      .error (.deltaParent log.indexFile revision (log.deltaParent record) true) := by
  rw [rebuild, chain, found]
  simp only [patch, later, dite_false, Bool.false_eq_true, if_false]
  rfl

/-- **Walking back and replaying gives the text.** By induction on the revision. -/
theorem rebuild_yields (sound : files.Sound) (revision : Nat) :
    Yields (log.text? files revision) (log.rebuild files revision).toOption := by
  induction revision using Nat.strongRecOn with
  | ind revision ih =>
    cases found : log.recordIn files.index revision with
    | error failure =>
      rw [rebuild_of_error found, text?, found]
      exact .failed
    | ok record =>
      by_cases literal : record.isLiteral
      · rw [rebuild_of_literal found literal, text?_of_literal found literal]
        exact chunk_yields sound record
      · by_cases earlier : 0 ≤ log.deltaParent record ∧ log.deltaParent record < revision
        · rw [rebuild_of_patch found literal earlier, text?_of_patch found literal earlier]
          simp only [Outcome.toOption_bind]
          rw [toOption_bind_patched sound record (ih _ (by omega)).provides]
          exact Reader.yields_ofBytes _
        · rw [rebuild_of_later found literal earlier, text?, found]
          simp only [literal, earlier, dite_false, Bool.false_eq_true, if_false]
          exact .failed

/-- The content of a revision is its text. -/
theorem toOption_content {disk : Disk} {number : Revision}
    (checked : log.check number = .ok revision) (opened : log.openFiles disk = .ok files) :
    (log.content disk number).toOption = log.text? files revision := by
  have sound := sound_of_openFiles opened
  rw [content, checked]
  show ((log.openFiles disk >>= fun files => log.rebuild files revision >>= fun text => _) :
    Except Failure Bytes).toOption = _
  rw [opened]
  show ((log.rebuild files revision >>= fun text => _) : Except Failure Bytes).toOption = _
  simp only [Outcome.toOption_bind, Outcome.toOption_mapError]
  exact (rebuild_yields sound revision).bind_rest

/-! ## Going on from the previous revision -/

/-- What is left of the previous revision, if anything. -/
def Retained (log : Log) (files : Files) (previous : Option (Nat × Reader)) : Prop :=
  ∀ ⦃number reader⦄, previous = some (number, reader) → Retains (log.text? files number) reader

theorem retained_none : log.Retained files none := nofun

theorem retained_some {reader : Reader} (retains : Retains (log.text? files revision) reader) :
    log.Retained files (some (revision, reader)) := by
  rintro number other same
  cases same
  exact retains

theorem contentAfter_of_literal (literal : record.isLiteral)
    {previous : Option (Nat × Reader)} :
    log.contentAfter files record previous = log.chunk files record := by
  rw [contentAfter]
  simp only [literal, if_true]
  cases log.chunk files record <;> rfl

/-- There is a place for whatever is earlier than a revision that the log has. -/
theorem hasPlace_of_earlier {parent : Int} (known : revision < log.count)
    (earlier : 0 ≤ parent ∧ parent < revision) : log.hasPlace parent := by
  simp only [hasPlace, Bool.and_eq_true, decide_eq_true_eq, Bool.or_eq_true]
  exact .inr ⟨earlier.1, by omega⟩

/-- The base of a patch is retained or rebuilt. -/
theorem baseAfter_provides (sound : files.Sound) {previous : Option (Nat × Reader)}
    (retained : log.Retained files previous) (place : log.hasPlace (log.deltaParent record))
    (nonneg : 0 ≤ log.deltaParent record) :
    Provides (log.text? files (log.deltaParent record).toNat)
      (log.baseAfter files record previous).toOption := by
  have rebuilt : Provides (log.text? files (log.deltaParent record).toNat)
      (log.parentText files record (log.deltaParent record)).toOption := by
    rw [parentText, if_pos place, if_neg (by omega)]
    exact (rebuild_yields sound _).provides
  rcases previous with _ | ⟨number, reader⟩
  · exact rebuilt
  · rw [baseAfter]
    split
    · rename_i same
      rw [← same, Int.toNat_natCast]
      exact .retained (retained rfl)
    · exact rebuilt

/-- The text of a patch that is gone on to, whatever its delta parent is, if there is a place for
that. -/
theorem toOption_contentAfter (sound : files.Sound) {previous : Option (Nat × Reader)}
    (retained : log.Retained files previous) (patch : ¬record.isLiteral)
    (place : log.hasPlace (log.deltaParent record)) (nonneg : 0 ≤ log.deltaParent record) :
    (log.contentAfter files record previous).toOption =
      ((log.text? files (log.deltaParent record).toNat).bind (log.patched? files record)).map
        Reader.ofBytes := by
  rw [contentAfter]
  simp only [patch, Bool.false_eq_true, if_false, Outcome.toOption_bind]
  rw [Option.bind_comm,
    toOption_bind_patched sound record (baseAfter_provides sound retained place nonneg)]

/-- **Going on from what is left of the previous revision gives the text**, if the record is either
a full text or a patch on an earlier revision. -/
theorem contentAfter_yields (sound : files.Sound) {previous : Option (Nat × Reader)}
    (retained : log.Retained files previous)
    (found : log.recordIn files.index revision = .ok record) (known : revision < log.count)
    (proper : ¬record.isLiteral → 0 ≤ log.deltaParent record ∧ log.deltaParent record < revision) :
    Yields (log.text? files revision) (log.contentAfter files record previous).toOption := by
  by_cases literal : record.isLiteral
  · rw [text?_of_literal found literal, contentAfter_of_literal literal]
    exact chunk_yields sound record
  · have earlier := proper literal
    have place := hasPlace_of_earlier known earlier
    rw [text?_of_patch found literal earlier,
      toOption_contentAfter sound retained literal place earlier.1]
    exact Reader.yields_ofBytes _

end Log

end RevisionLog
