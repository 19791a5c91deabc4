import Mathlib
import RevisionLog.Proofs.Log.RoundTrip

/-!
# Texts by recursion

`Log.HasText` says what the text of a revision is, from the bytes of the files and with nothing but
recursion on the revision: the payload of its chunk if the base of its record is the revision
itself, and otherwise what the patch in the chunk makes of the text of its delta parent, which has
to be an earlier revision. The content of a revision is this text, and there is none where the
definition gives none (`Log.content_eq_ok_iff`).

On its way the log does not recurse but walks back from record to record. `Log.Walks` tells which
revisions it comes through and what it ends with, one constructor for each way to go on or to end.
Each step is checked to go to an earlier revision, whatever the records say, so the walk is over
after as many steps as there are earlier revisions (`Log.Walks.decreasing`, `Log.Walks.length_le`).
-/

namespace RevisionLog.Log

variable {log : Log} {disk : Disk} {files : Files} {revision : Nat} {record : Record}

/-! ## What a text is -/

/-- The chunk of a record as the files hold it: behind the record in an inline log, at its offset in
the data file otherwise. -/
def HasChunk (log : Log) (disk : Disk) (record : Record) (chunk : Bytes) : Prop :=
  let length := record.chunkLength.toInt.toNat
  let place := if log.isInline then log.recordPosition record.revision + Record.size
    else record.offset
  ∃ bytes, disk log.contentFile = .ok bytes ∧ place + length ≤ bytes.length ∧
    chunk = (bytes.drop place).take length

/-- What the chunk of a record decodes to. -/
def HasPayload (log : Log) (disk : Disk) (record : Record) (payload : Bytes) : Prop :=
  ∃ chunk, log.HasChunk disk record chunk ∧ Stores log.strictCompression payload chunk

/-- The text of a revision. -/
inductive HasText (log : Log) (disk : Disk) : Nat → Bytes → Prop
  | full {revision : Nat} {record : Record} {text : Bytes}
      (found : log.record disk (Int32.ofNat revision) = .ok record)
      (base : record.base.toInt = revision) (stored : log.HasPayload disk record text) :
      HasText log disk revision text
  | patched {revision parent : Nat} {record : Record} {origin payload text : Bytes} {patch : Patch}
      (found : log.record disk (Int32.ofNat revision) = .ok record)
      (base : record.base.toInt ≠ revision)
      (place : (parent : Int) = if log.isGeneralDelta then record.base.toInt else revision - 1)
      (earlier : parent < revision) (before : HasText log disk parent origin)
      (stored : log.HasPayload disk record payload)
      (decoded : (Patch.read (.ofBytes payload)).1 = .ok patch)
      (applied : (Patch.apply record.textLength patch (.ofBytes origin)).1 = .ok text) :
      HasText log disk revision text

/-! ## Chunks -/

/-- The window of a chunk shows the bytes that the files hold. -/
theorem hasChunk_iff (opened : log.openFiles disk = .ok files) {chunk : Bytes} :
    log.HasChunk disk record chunk ↔ ∃ buffer, log.storedChunk files record = .ok buffer ∧
      buffer.Fits ∧ buffer.position = 0 ∧ buffer.slice = chunk := by
  have window : ∀ (wrap : Fault → Failure) {bytes : Bytes} {place length : Nat},
      place + length ≤ bytes.length ∧ chunk = (bytes.drop place).take length ↔
        ∃ buffer, ((Buffer.whole bytes 0).window place length).mapError wrap = .ok buffer ∧
          buffer.Fits ∧ buffer.position = 0 ∧ buffer.slice = chunk := by
    intro wrap bytes place length
    refine ⟨?_, ?_⟩
    · rintro ⟨room, rfl⟩
      obtain ⟨buffer, found, fits, start, slice⟩ := Buffer.window_whole room
      exact ⟨buffer, Outcome.mapError_eq_ok.2 found, fits, start, slice⟩
    · rintro ⟨buffer, found, -, -, rfl⟩
      have found := Outcome.mapError_eq_ok.1 found
      have whole : (Buffer.whole bytes 0).slice = bytes := Buffer.slice_ofBytes bytes
      exact ⟨(Buffer.window_eq_ok found).1, by rw [Buffer.slice_window found, whole]⟩
  obtain ⟨index, data⟩ := openFiles_eq_ok.1 opened
  obtain ⟨indexBytes, indexFile, index⟩ := openIndex_eq_ok.1 index
  rw [HasChunk, storedChunk, contentFile]
  cases log.isInline with
  | true =>
    simp only [if_true, indexFile, index]
    rw [← window _]
    refine ⟨?_, fun there => ⟨_, rfl, there⟩⟩
    rintro ⟨bytes, same, there⟩
    rwa [Except.ok.inj same]
  | false =>
    simp only [Bool.false_eq_true, if_false, data]
    cases dataFile : disk log.dataFile with
    | error fault =>
      have closed : log.openData disk = .error (.file log.dataFile .openData fault) := by
        rw [Location.openData, Disk.open, dataFile]
        rfl
      rw [closed]
      refine ⟨?_, ?_⟩
      · rintro ⟨_, found, -⟩
        cases found
      · rintro ⟨_, found, -⟩
        cases found
    | ok bytes =>
      have there : log.openData disk = .ok (.whole bytes 0) := by
        rw [Location.openData, Disk.open, dataFile]
        rfl
      rw [there]
      refine Iff.trans ?_ (window (.file log.dataFile (.locateChunk record.revision)))
      refine ⟨?_, fun there => ⟨_, rfl, there⟩⟩
      rintro ⟨bytes, same, there⟩
      rwa [Except.ok.inj same]

/-- A stream that is read to its end is complete. -/
theorem complete_of_rest {bytes payload : Bytes}
    (read : (Reader.rest (.inflating (.ofBytes bytes))).1.toOption = some payload) :
    (Zlib.Stream.decode bytes).ending = .complete := by
  by_contra incomplete
  have damaged : Reader.Damaged (.inflating (.ofBytes bytes)) := .inflating incomplete
  obtain ⟨fault, run⟩ := damaged.rest
  rw [run] at read
  cases read

/-- A chunk that decodes to a payload stores it. The cases are those of the first byte; whatever is
stored behind it is decoded, so it is the payload. -/
theorem stores_of_decoded? {buffer : Buffer} {payload : Bytes}
    (found : log.storedChunk files record = .ok buffer) (fits : buffer.Fits)
    (start : buffer.position = 0) (decoded : log.decoded? files record = some payload) :
    Stores log.strictCompression payload buffer.slice := by
  have stored : ∀ {other : Bytes}, Stores log.strictCompression other buffer.slice →
      Stores log.strictCompression payload buffer.slice := by
    intro other stores
    have same := decoded?_of_stores found fits start stores
    rw [decoded] at same
    rwa [Option.some.inj same]
  have behind : ∀ {byte : UInt8}, buffer.first? = some byte →
      ∃ rest, buffer.slice = byte :: rest := by
    intro byte first
    rw [Buffer.first?_eq fits] at first
    exact List.head?_eq_some_iff.1 first
  rw [decoded?, chunk, found] at decoded
  dsimp only [Bind.bind, Except.bind] at decoded
  split at decoded
  · rename_i none
    rw [Buffer.first?_eq fits, List.head?_eq_none_iff] at none
    rw [none] at stored ⊢
    exact stored (.empty rfl)
  · rename_i first
    obtain ⟨rest, whole⟩ := behind first
    have complete := complete_of_rest decoded
    rw [whole] at stored complete ⊢
    have same : Zlib.Stream.decode (0x78 :: rest) =
        ⟨(Zlib.Stream.decode (0x78 :: rest)).output.toList.toArray, .complete⟩ := by
      rw [Array.toArray_toList, ← complete]
    exact stored (.compressed same)
  · rename_i first
    obtain ⟨rest, whole⟩ := behind first
    rw [whole] at stored ⊢
    exact stored .marked
  · rename_i first
    obtain ⟨rest, whole⟩ := behind first
    rw [whole] at stored ⊢
    exact stored (.plain rfl (.inl rfl))
  · rename_i byte compressed marked plain first
    obtain ⟨rest, whole⟩ := behind first
    rw [whole] at stored ⊢
    cases strict : log.strictCompression with
    | false =>
      rw [strict] at stored
      exact stored (.plain rfl (.inr ⟨rfl, compressed, marked⟩))
    | true =>
      rw [strict] at decoded
      cases decoded

/-- **What is decoded of a chunk is its payload.** -/
theorem decoded?_eq_some_iff (opened : log.openFiles disk = .ok files) {payload : Bytes} :
    log.decoded? files record = some payload ↔ log.HasPayload disk record payload := by
  refine ⟨fun decoded => ?_, ?_⟩
  · have read := decoded
    rw [decoded?] at read
    obtain ⟨chunk, found, -⟩ := Option.bind_eq_some_iff.1 read
    obtain ⟨buffer, stored, -⟩ := Outcome.bind_eq_ok.1 (Outcome.toOption_eq_some.1 found)
    obtain ⟨fits, start⟩ := fits_storedChunk (sound_of_openFiles opened) stored
    exact ⟨buffer.slice, (hasChunk_iff opened).2 ⟨buffer, stored, fits, start, rfl⟩,
      stores_of_decoded? stored fits start decoded⟩
  · rintro ⟨chunk, there, stores⟩
    obtain ⟨buffer, stored, fits, start, rfl⟩ := (hasChunk_iff opened).1 there
    exact decoded?_of_stores stored fits start stores

/-- What is made of a text by the patch of a record. -/
theorem patched?_eq_some_iff (opened : log.openFiles disk = .ok files) {origin text : Bytes} :
    log.patched? files record origin = some text ↔ ∃ payload patch,
      log.HasPayload disk record payload ∧ (Patch.read (.ofBytes payload)).1 = .ok patch ∧
        (Patch.apply record.textLength patch (.ofBytes origin)).1 = .ok text := by
  have applied : ∀ {payload : Bytes} {patch : Patch}, Patch.decode? payload = some patch →
      (patch.applied? record.textLength origin = some text ↔
        (Patch.apply record.textLength patch (.ofBytes origin)).1 = .ok text) := by
    intro payload patch decoded
    rw [← Patch.apply_at record.textLength (Patch.storable_of_decode? decoded)
      (Reader.at_ofBytes origin), Outcome.toOption_eq_some]
  simp only [patched?, Option.bind_eq_some_iff, decoded?_eq_some_iff opened]
  refine ⟨?_, ?_⟩
  · rintro ⟨patch, ⟨payload, there, decoded⟩, made⟩
    exact ⟨payload, patch, there, Outcome.toOption_eq_some.1 decoded, (applied decoded).1 made⟩
  · rintro ⟨payload, patch, there, read, made⟩
    have decoded : Patch.decode? payload = some patch := Outcome.toOption_eq_some.2 read
    exact ⟨patch, ⟨payload, there, decoded⟩, (applied decoded).2 made⟩

/-! ## Texts -/

/-- The record that a question for it gives is the one in the open index. -/
theorem record_iff_recordIn (few : log.count ≤ 2 ^ 31) (opened : log.openFiles disk = .ok files)
    (known : revision < log.count) :
    log.record disk (Int32.ofNat revision) = .ok record ↔
      log.recordIn files.index revision = .ok record := by
  rw [record_eq (openFiles_eq_ok.1 opened).1 (check_ofNat few known)]

/-- The number of a record that is read is that of its revision. -/
theorem revision_of_recordIn (opened : log.openFiles disk = .ok files)
    (found : log.recordIn files.index revision = .ok record) : record.revision = revision := by
  obtain ⟨bytes, -, same⟩ := openIndex_eq_ok.1 (openFiles_eq_ok.1 opened).1
  rw [same] at found
  rw [(recordIn_eq_ok.1 found).2.2]
  rfl

/-- Where there is a text the files can be opened. -/
theorem HasText.opened {text : Bytes} (has : log.HasText disk revision text) :
    ∃ files, log.openFiles disk = .ok files := by
  have read : ∃ record, log.record disk (Int32.ofNat revision) = .ok record := by
    cases has with
    | full found => exact ⟨_, found⟩
    | patched found => exact ⟨_, found⟩
  obtain ⟨record, asked⟩ := read
  obtain ⟨number, -, asked⟩ := Outcome.bind_eq_ok.1 asked
  obtain ⟨index, there, -⟩ := Outcome.bind_eq_ok.1 asked
  obtain ⟨bytes, file, -⟩ := openIndex_eq_ok.1 there
  exact openFiles_of_index log file

/-- **The text that a log makes is the text by recursion.** By induction on the revision. -/
theorem text?_eq_some_iff (few : log.count ≤ 2 ^ 31) (opened : log.openFiles disk = .ok files)
    (known : revision < log.count) {text : Bytes} :
    log.text? files revision = some text ↔ log.HasText disk revision text := by
  induction revision using Nat.strongRecOn generalizing text with
  | ind revision ih =>
    refine ⟨fun told => ?_, fun has => ?_⟩
    · cases found : log.recordIn files.index revision with
      | error failure =>
        rw [text?, found] at told
        cases told
      | ok record =>
        have asked := (record_iff_recordIn few opened known).2 found
        have number := revision_of_recordIn opened found
        by_cases literal : record.isLiteral
        · rw [text?_of_literal found literal, decoded?_eq_some_iff opened] at told
          have base := of_decide_eq_true literal
          rw [number] at base
          exact .full asked base told
        · have base : record.base.toInt ≠ revision := by
            rw [← number]
            exact fun same => literal (decide_eq_true same)
          by_cases earlier : 0 ≤ log.deltaParent record ∧ log.deltaParent record < revision
          · rw [text?_of_patch found literal earlier] at told
            obtain ⟨origin, before, made⟩ := Option.bind_eq_some_iff.1 told
            obtain ⟨payload, patch, there, decoded, applied⟩ := (patched?_eq_some_iff opened).1 made
            have below : (log.deltaParent record).toNat < revision := by omega
            have place : ((log.deltaParent record).toNat : Int) =
                if log.isGeneralDelta then record.base.toInt else revision - 1 := by
              rw [Int.toNat_of_nonneg earlier.1, deltaParent, number]
            exact .patched asked base place below
              ((ih _ below (by omega)).1 before) there decoded applied
          · rw [text?, found] at told
            simp only [literal, earlier, dite_false, Bool.false_eq_true, if_false] at told
            cases told
    · cases has with
      | full asked base stored =>
        have found := (record_iff_recordIn few opened known).1 asked
        have literal := decide_eq_true base
        rw [← revision_of_recordIn opened found] at literal
        rw [text?_of_literal found literal, decoded?_eq_some_iff opened]
        exact stored
      | @patched _ parent record origin payload _ patch asked base place below before there decoded
          applied =>
        have found := (record_iff_recordIn few opened known).1 asked
        have number := revision_of_recordIn opened found
        have literal : ¬record.isLiteral := by
          rw [← number] at base
          exact fun same => base (of_decide_eq_true same)
        have parent_eq : log.deltaParent record = parent := by rw [deltaParent, number, place]
        rw [text?_of_patch found literal (by omega), parent_eq, Int.toNat_natCast,
          (ih parent below (by omega)).2 before]
        exact (patched?_eq_some_iff opened).2 ⟨payload, patch, there, decoded, applied⟩

/-! ## The way back -/

/-- The revisions that the walk back from one comes through, and what it ends with: the record of
a full text and those of the patches on it, or why there is none. -/
inductive Walks (log : Log) (files : Files) :
    Nat → List Nat → Except Failure (Record × List Record) → Prop
  | lost {revision : Nat} {failure : Failure}
      (found : log.recordIn files.index revision = .error failure) :
      Walks log files revision [revision] (.error failure)
  | full {revision : Nat} {record : Record} (found : log.recordIn files.index revision = .ok record)
      (literal : record.isLiteral) : Walks log files revision [revision] (.ok (record, []))
  | astray {revision : Nat} {record : Record}
      (found : log.recordIn files.index revision = .ok record) (patch : ¬record.isLiteral)
      (later : ¬(0 ≤ log.deltaParent record ∧ log.deltaParent record < revision)) :
      Walks log files revision [revision]
        (.error (.deltaParent log.indexFile revision (log.deltaParent record) true))
  | back {revision parent : Nat} {record : Record} {walked : List Nat}
      {outcome : Except Failure (Record × List Record)}
      (found : log.recordIn files.index revision = .ok record) (patch : ¬record.isLiteral)
      (place : (parent : Int) = log.deltaParent record) (earlier : parent < revision)
      (walks : Walks log files parent walked outcome) :
      Walks log files revision (revision :: walked)
        (outcome.map fun found => (found.1, found.2 ++ [record]))

variable {walked : List Nat} {outcome : Except Failure (Record × List Record)}

/-- **The chain of a revision is what a walk back ends with.** By induction on the revision. -/
theorem walks_chain (log : Log) (files : Files) (revision : Nat) :
    ∃ walked, log.Walks files revision walked (log.chain files revision []) := by
  induction revision using Nat.strongRecOn with
  | ind revision ih =>
    rw [chain]
    cases found : log.recordIn files.index revision with
    | error failure => exact ⟨_, .lost found⟩
    | ok record =>
      dsimp only
      by_cases literal : record.isLiteral
      · rw [if_pos literal]
        exact ⟨_, .full found literal⟩
      · rw [if_neg literal]
        by_cases earlier : 0 ≤ log.deltaParent record ∧ log.deltaParent record < revision
        · have below : (log.deltaParent record).toNat < revision := by omega
          obtain ⟨walked, walks⟩ := ih _ below
          rw [dif_pos earlier, chain_append]
          exact ⟨_, .back found literal (Int.toNat_of_nonneg earlier.1) below walks⟩
        · rw [dif_neg earlier]
          exact ⟨_, .astray found literal earlier⟩

/-- A walk starts at its revision and goes to earlier and earlier ones. -/
theorem Walks.decreasing (walks : log.Walks files revision walked outcome) :
    walked.head? = some revision ∧ walked.IsChain (· > ·) := by
  induction walks with
  | lost | full | astray => exact ⟨rfl, .singleton _⟩
  | back found patch place earlier walks ih =>
    obtain ⟨first, descends⟩ := ih
    refine ⟨rfl, List.isChain_cons.2 ⟨?_, descends⟩⟩
    intro next head
    rw [first] at head
    cases head
    exact earlier

theorem Walks.le (walks : log.Walks files revision walked outcome) :
    ∀ n ∈ walked, n ≤ revision := by
  induction walks with
  | lost | full | astray => exact fun n member => Nat.le_of_eq (List.mem_singleton.1 member)
  | back found patch place earlier walks ih =>
    refine List.forall_mem_cons.2 ⟨Nat.le_refl _, fun n member => ?_⟩
    exact Nat.le_trans (ih n member) (Nat.le_of_lt earlier)

/-- A walk from a revision takes at most as many steps as there are revisions before it. -/
theorem Walks.length_le (walks : log.Walks files revision walked outcome) :
    walked.length ≤ revision + 1 := by
  induction walks with
  | lost | full | astray => exact Nat.le_add_left 1 _
  | back found patch place earlier walks ih =>
    rw [List.length_cons]
    omega

/-! ## Contents -/

/-- **The content of a revision is its text by recursion.** Whatever the files hold when they are
asked, a log whose outline was read at some time gives a text for a revision that it has exactly if
that is the text of the revision, and fails if there is none. On the way it walks back from the
revision to ever earlier ones, and ends after at most as many steps as there are of those. -/
theorem content_eq_ok_iff {before : Disk} (loaded : log.Loaded before) (disk : Disk)
    (known : revision < log.count) :
    (∀ text, log.content disk (Int32.ofNat revision) = .ok text ↔ log.HasText disk revision text) ∧
    ((∀ text, ¬log.HasText disk revision text) →
      ∃ failure, log.content disk (Int32.ofNat revision) = .error failure) ∧
    ∀ files, log.openFiles disk = .ok files → ∃ walked,
      log.Walks files revision walked (log.chain files revision []) ∧
        walked.head? = some revision ∧ walked.IsChain (· > ·) ∧ (∀ n ∈ walked, n ≤ revision) ∧
        walked.length ≤ revision + 1 := by
  have checked := loaded.check known
  have told : ∀ text, log.content disk (Int32.ofNat revision) = .ok text ↔
      log.HasText disk revision text := by
    intro text
    cases opened : log.openFiles disk with
    | ok files =>
      rw [← Outcome.toOption_eq_some, toOption_content checked opened,
        text?_eq_some_iff loaded.count_le opened known]
    | error failure =>
      refine ⟨fun told => ?_, fun has => ?_⟩
      · obtain ⟨_, -, told⟩ := Outcome.bind_eq_ok.1 told
        obtain ⟨files, found, -⟩ := Outcome.bind_eq_ok.1 told
        rw [opened] at found
        cases found
      · obtain ⟨files, found⟩ := has.opened
        rw [opened] at found
        cases found
  refine ⟨told, fun none => ?_, fun files opened => ?_⟩
  · cases run : log.content disk (Int32.ofNat revision) with
    | error failure => exact ⟨failure, rfl⟩
    | ok text => exact absurd ((told text).1 run) (none text)
  · obtain ⟨walked, walks⟩ := walks_chain log files revision
    obtain ⟨first, descends⟩ := walks.decreasing
    exact ⟨walked, walks, first, descends, walks.le, walks.length_le⟩

/-- The disk of the pair after another literal of the same length was put in the place of the first
one. -/
def exchangedPairDisk : Disk := fun path =>
  if path = "a.d" then .ok ([0x75, 4, 5, 6] ++ (Index.writeData pair).drop 4) else pairDisk path

set_option maxRecDepth 4000 in
/-- The second text of the pair is then the patched new literal and nothing else. -/
theorem content_eq_ok_iff_exchanged : pairLog.HasText exchangedPairDisk 1 [4, 9, 9, 6] ∧
    ∀ text, pairLog.HasText exchangedPairDisk 1 text → text = [4, 9, 9, 6] := by
  have read : pairLog.content exchangedPairDisk 1 = .ok [4, 9, 9, 6] := by cbv
  have told := (content_eq_ok_iff loaded_pair exchangedPairDisk
    (show 1 < pairLog.count by decide)).1
  refine ⟨(told _).1 read, fun text has => ?_⟩
  exact Except.ok.inj (((told text).2 has).symm.trans read)

end RevisionLog.Log
