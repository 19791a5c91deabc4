import RevisionLog.Proofs.Log.Stored
import RevisionLog.Proofs.Log.Streaming

/-!
# Reading back what was written

`Written` is a revision as it is written to a log: its text, and a record and a chunk from which the
text can be made again. A chunk `Stores` a payload in one of four ways, and the payload is the text
or a patch on the text of an earlier revision (`Written.Encoded`). By induction on the revision, the
text of each revision is the one that was written (`Log.Holds.text?_eq`), whatever the chains of
patches look like. So the log reads back as it was written, with one question for each revision or
in one iteration (`Log.round_trip`).
-/

namespace RevisionLog

open Reader (At)

/-- A chunk that a payload is read back from: behind a mark, as it is if it does not start with a
mark of its own, or compressed. -/
inductive Stores (strict : Bool) (payload : Bytes) : Bytes → Prop
  | marked : Stores strict payload (0x75 :: payload)
  | empty (none : payload = []) : Stores strict payload []
  | plain {first : UInt8} {rest : Bytes} (same : payload = first :: rest)
      (unmarked : first = 0 ∨ strict = false ∧ first ≠ 0x78 ∧ first ≠ 0x75) :
      Stores strict payload (first :: rest)
  | compressed {rest : Bytes}
      (decoded : Zlib.Stream.decode (0x78 :: rest) = ⟨payload.toArray, .complete⟩) :
      Stores strict payload (0x78 :: rest)

/-- A revision that is written. -/
structure Written where
  text : Bytes
  stored : Stored

namespace Written

/-- The chunk of a revision stores its text in full, or a patch that makes it of the text of an
earlier revision. With general deltas the base names that one, otherwise it is the revision before.
-/
inductive Encoded (header : Header) (strict : Bool) (revisions : List Written) (n : Nat)
    (written : Written) : Prop
  | full (base : written.stored.base.toInt = n)
      (chunk : Stores strict written.text written.stored.chunk)
  | patched {parent : Nat} {origin : Written} {patch : Patch}
      (found : revisions[parent]? = some origin) (earlier : parent < n)
      (base : if header.isGeneralDelta then written.stored.base.toInt = parent
        else parent + 1 = n ∧ 0 ≤ written.stored.base.toInt ∧ written.stored.base.toInt < n)
      (fits : patch.Fits origin.text.length 0) (text : patch.edit origin.text = written.text)
      (chunk : Stores strict patch.write written.stored.chunk)

/-- What can be written as a revision of a log. -/
structure Sound (header : Header) (strict : Bool) (revisions : List Written) (n : Nat)
    (written : Written) : Prop where
  text : written.text.length < 2 ^ 31
  chunk : written.stored.chunk.length < 2 ^ 31
  offset : Index.start (revisions.map stored) n < 2 ^ 48
  length : written.stored.textLength = Patch.unknownLength ∨
    written.stored.textLength.toInt = written.text.length
  encoded : written.Encoded header strict revisions n

/-- The records and the texts that are to be read back. -/
def told (revisions : List Written) : List (Record × Bytes) :=
  revisions.mapIdx fun n written =>
    (written.stored.record n (Index.start (revisions.map stored) n), written.text)

/-- The base of a revision is itself or an earlier one. -/
theorem Encoded.base_le {header : Header} {strict : Bool} {revisions : List Written} {n : Nat}
    {written : Written} (h : written.Encoded header strict revisions n) :
    0 ≤ written.stored.base.toInt ∧ written.stored.base.toInt ≤ n := by
  cases h with
  | full base => omega
  | patched found earlier base =>
    split at base <;> omega

end Written

/-- The revisions of a list can be written one after another. -/
def Written.Sounds (header : Header) (strict : Bool) (revisions : List Written) : Prop :=
  ∀ (n : Nat) (written : Written), revisions[n]? = some written →
    written.Sound header strict revisions n

/-! ## Chunks -/

theorem Buffer.first?_eq {buffer : Buffer} (fits : buffer.Fits) :
    buffer.first? = buffer.slice.head? := by
  have inside : buffer.start + buffer.length ≤ buffer.bytes.size := fits
  rw [first?, slice_eq, List.head?_take, List.head?_drop, Array.getElem?_toList]
  split
  · rw [if_neg (by omega)]
  · rw [if_pos (by omega)]

namespace Log

variable {log : Log} {files : Files} {record : Record}

/-- **A chunk that stores a payload decodes to it.** -/
theorem decoded?_of_stores {buffer : Buffer} {payload : Bytes}
    (found : log.storedChunk files record = .ok buffer) (fits : buffer.Fits)
    (start : buffer.position = 0) (stores : Stores log.strictCompression payload buffer.slice) :
    log.decoded? files record = some payload := by
  have plain : ∀ {inner : Buffer}, inner.Fits → inner.position = 0 →
      (Reader.rest (.plain inner)).1.toOption = some inner.slice := by
    intro inner fits start
    obtain ⟨moved, run, -⟩ := (At.plain fits rfl start (Nat.zero_le _)).rest
    rw [run]
    rfl
  have first := Buffer.first?_eq fits
  have length := fits.length_slice
  rw [decoded?, chunk, found]
  dsimp only [Bind.bind, Except.bind]
  generalize whole : buffer.slice = bytes at stores first length
  rw [first]
  cases stores with
  | marked =>
    have room : 1 + (buffer.length - 1) ≤ buffer.length := by
      rw [List.length_cons] at length
      omega
    have window : buffer.window 1 (buffer.length - 1) =
      .ok ⟨buffer.bytes, buffer.start + 1, buffer.length - 1, 0⟩ := if_pos room
    dsimp only [List.head?_cons]
    rw [window]
    show (Reader.rest (.plain _)).1.toOption = some payload
    rw [plain (fits.window window) rfl, Buffer.slice_window window, whole, List.drop_succ_cons,
      List.drop_zero, List.take_of_length_le (by rw [← length, List.length_cons]; omega)]
  | empty none =>
    show (Reader.rest (.plain buffer)).1.toOption = some payload
    rw [plain fits start, whole, none]
  | @plain byte rest same unmarked =>
    have asItIs : (Reader.rest (.plain buffer)).1.toOption = some payload := by
      rw [plain fits start, whole, same]
    dsimp only [List.head?_cons]
    rcases unmarked with rfl | ⟨lenient, compressed, marked⟩
    · exact asItIs
    · split
      · exact asItIs
      · rename_i same
        exact absurd (Option.some.inj same) compressed
      · rename_i same
        exact absurd (Option.some.inj same) marked
      · exact asItIs
      · rw [lenient]
        exact asItIs
  | @compressed rest decoded =>
    show (Reader.rest (.inflating (.ofBytes (0x78 :: rest)))).1.toOption = some payload
    have start : At payload 0 (.inflating (.ofBytes (0x78 :: rest))) := by
      rw [Inflater.ofBytes, decoded]
      exact .inflating (Nat.zero_le _)
    obtain ⟨moved, run, -⟩ := start.rest
    rw [run]
    rfl

/-! ## Texts -/

variable {revisions : List Written} {written : Written} {n : Nat}

theorem sound_of_sounds {header : Header} {strict : Bool}
    (sounds : Written.Sounds header strict revisions) :
    Index.Sound 0 0 (revisions.map Written.stored) := by
  intro n stored found
  rw [List.getElem?_map, Option.map_eq_some_iff] at found
  obtain ⟨written, found, rfl⟩ := found
  have sound := sounds n written found
  rw [Nat.zero_add, Nat.zero_add]
  refine ⟨sound.chunk, sound.encoded.base_le, sound.offset, ?_⟩
  rintro rfl
  rfl

/-- The patch of a written revision can be stored, because its data are a part of the text. -/
theorem storable_of_edit {patch : Patch} {base text : Bytes} (fits : patch.Fits base.length 0)
    (edit : patch.edit base = text) (small : text.length < 2 ^ 31) :
    ∀ fragment ∈ patch, fragment.Storable := by
  intro fragment member
  have := Patch.length_data_le fits member
  rw [edit, List.drop_zero] at this
  exact Nat.lt_of_le_of_lt this small

/-- **The text of a revision is the one that was written.** By induction on the revision. -/
theorem Holds.text?_eq (holds : log.Holds files (revisions.map Written.stored))
    (sounds : Written.Sounds log.header log.strictCompression revisions)
    (few : revisions.length ≤ 2 ^ 31) (found : revisions[n]? = some written) :
    log.text? files n = some written.text := by
  induction n using Nat.strongRecOn generalizing written with
  | ind n ih =>
    have stored : (revisions.map Written.stored)[n]? = some written.stored := by
      rw [List.getElem?_map, found]
      rfl
    have count : (revisions.map Written.stored).length ≤ 2 ^ 31 := by rwa [List.length_map]
    have indexed := sound_of_sounds sounds
    have record := holds.recordIn_eq indexed count stored
    obtain ⟨buffer, chunk, fits, start, slice⟩ := holds.storedChunk_eq indexed count stored
    have sound := sounds n written found
    cases sound.encoded with
    | full base stores =>
      rw [← slice] at stores
      rw [text?_of_literal record (decide_eq_true base)]
      exact decoded?_of_stores chunk fits start stores
    | @patched parent origin patch origins earlier base inside edit stores =>
      rw [← slice] at stores
      have decoded := decoded?_of_stores chunk fits start stores
      have other : ¬written.stored.base.toInt = n := by
        split at base <;> omega
      have place : log.deltaParent (written.stored.record n
          (Index.start (revisions.map Written.stored) n)) = parent := by
        rw [deltaParent, isGeneralDelta]
        split at base
        · rename_i general
          rw [if_pos general]
          exact base
        · rename_i general
          rw [if_neg general]
          show (n : Int) - 1 = parent
          omega
      rw [text?_of_patch record (by rw [Record.isLiteral]; exact fun h => other (of_decide_eq_true h))
        (by rw [place]; omega), place, Int.toNat_natCast, ih parent earlier origins]
      have patches := Patch.decode?_write (storable_of_edit inside edit sound.text)
      show log.patched? files _ origin.text = _
      rw [patched?, decoded]
      show (Patch.decode? patch.write).bind _ = _
      rw [patches]
      show patch.applied? written.stored.textLength origin.text = _
      rw [Patch.applied?, edit, if_pos ⟨inside, sound.length⟩]

/-! ## Full texts -/

section Full

variable {disk : Disk} {revisions : List Stored} {stored : Stored} {text : Bytes}

/-- The content of a full text is the payload of its chunk. -/
theorem Holds.content_of_full (holds : log.Holds files revisions)
    (sound : Index.Sound 0 0 revisions) (loaded : log.Loaded disk)
    (opened : log.openFiles disk = .ok files) (found : revisions[n]? = some stored)
    (base : stored.base.toInt = n)
    (stores : Stores log.strictCompression text stored.chunk) :
    log.content disk (Int32.ofNat n) = .ok text := by
  have few : revisions.length ≤ 2 ^ 31 := holds.count_eq ▸ loaded.count_le
  have known : n < log.count := holds.count_eq ▸ (List.getElem?_eq_some_iff.1 found).1
  obtain ⟨buffer, chunk, fits, start, slice⟩ := holds.storedChunk_eq sound few found
  rw [← slice] at stores
  rw [← Outcome.toOption_eq_some, toOption_content (loaded.check known) opened,
    text?_of_literal (holds.recordIn_eq sound few found) (decide_eq_true base)]
  exact decoded?_of_stores chunk fits start stores

theorem content_split (few : revisions.length ≤ 2 ^ 31) (sound : Index.Sound 0 0 revisions)
    (found : revisions[n]? = some stored) (base : stored.base.toInt = n)
    (stores : Stores false text stored.chunk) :
    (splitLog revisions).content (splitDisk revisions) (Int32.ofNat n) = .ok text := by
  have some : revisions ≠ [] := by
    rintro rfl
    cases found
  exact (holds_split revisions).content_of_full sound (loaded_split some few sound)
    (openFiles_split revisions) found base stores

end Full

/-! ## The whole log -/

theorem getElem?_told : (Written.told revisions)[n]? = revisions[n]?.map fun written =>
    (written.stored.record n (Index.start (revisions.map Written.stored) n), written.text) := by
  rw [Written.told, List.getElem?_mapIdx]

/-- The texts of a log without general deltas are read from an earlier revision on. -/
theorem Holds.readFrom_le (holds : log.Holds files (revisions.map Written.stored))
    (sounds : Written.Sounds log.header log.strictCompression revisions)
    (found : revisions[n]? = some written) : log.readFrom n ≤ n := by
  have base := (sounds n written found).encoded.base_le
  have stored : (revisions.map Written.stored)[n]? = some written.stored := by
    rw [List.getElem?_map, found]
    rfl
  rw [readFrom]
  split
  · exact Nat.le_refl n
  · rw [holds.entries, Index.getElem?_entriesFrom, stored]
    show written.stored.base.toInt.toNat ≤ n
    omega

/-- A part of a list, by the positions in it. -/
theorem take_drop_eq_map {α : Type} (list : List α) (other : α) {first count : Nat}
    (inside : first + count ≤ list.length) :
    (list.drop first).take count = (List.range' first count).map (list[·]?.getD other) := by
  apply List.ext_getElem?
  intro i
  rw [List.getElem?_take, List.getElem?_drop, List.getElem?_map]
  split
  · rw [List.getElem?_range' (by assumption), List.getElem?_eq_getElem (by omega)]
    simp [List.getElem?_eq_getElem (show first + i < list.length by omega)]
  · rw [List.getElem?_eq_none (by rw [List.length_range']; omega)]
    rfl

/-- Each record and each text is read back. -/
theorem Holds.told_eq {disk : Disk} (holds : log.Holds files (revisions.map Written.stored))
    (opened : log.openFiles disk = .ok files)
    (sounds : Written.Sounds log.header log.strictCompression revisions)
    (few : revisions.length ≤ 2 ^ 31) {text : Bytes}
    (told : (Written.told revisions)[n]? = some (record, text)) :
    log.record disk (Int32.ofNat n) = .ok record ∧ log.content disk (Int32.ofNat n) = .ok text := by
  rw [getElem?_told, Option.map_eq_some_iff] at told
  obtain ⟨written, found, same⟩ := told
  cases same
  have here := (List.getElem?_eq_some_iff.1 found).1
  have count : log.count = revisions.length := by rw [holds.count_eq, List.length_map]
  have stored : (revisions.map Written.stored)[n]? = some written.stored := by
    rw [List.getElem?_map, found]
    rfl
  have checked : log.check (Int32.ofNat n) = .ok n := check_ofNat (by omega) (by omega)
  refine ⟨?_, ?_⟩
  · rw [record_eq (openFiles_eq_ok.1 opened).1 checked]
    exact holds.recordIn_eq (sound_of_sounds sounds) (by rwa [List.length_map]) stored
  · rw [← Outcome.toOption_eq_some, toOption_content checked opened]
    exact holds.text?_eq sounds few found

/-- An iteration over texts that are all there gathers the records and the texts of its range. -/
theorem Holds.iterate_gathering {σ : Type} {disk : Disk}
    (holds : log.Holds files (revisions.map Written.stored))
    (opened : log.openFiles disk = .ok files)
    (sounds : Written.Sounds log.header log.strictCompression revisions)
    (few : revisions.length ≤ 2 ^ 31) {start stop : Revision} {first last : Nat}
    (starts : start.resolve log.count = first) (stops : stop.resolve log.count = last)
    (le : first ≤ last) (inside : last < log.count) (gather : Record → Answer → σ → σ) (state : σ) :
    log.iterate disk start stop true (Visitor.gathering gather) state =
      (.ok (), (((Written.told revisions).drop first).take (last + 1 - first)).foldl
        (fun state told => gather told.1 (.ok (.bytes told.2)) state) state) := by
  have count := holds.count_eq
  rw [List.length_map] at count
  have whole : (Written.told revisions).length = revisions.length := by
    rw [Written.told, List.length_mapIdx]
  have known : first < revisions.length := by omega
  have here : first < (Written.told revisions).length := by omega
  let tell : Nat → Record × Bytes := fun n =>
    (Written.told revisions)[n]?.getD (Written.told revisions)[first]
  have part := take_drop_eq_map (Written.told revisions) (Written.told revisions)[first]
    (show first + (last + 1 - first) ≤ _ by omega)
  have early := holds.readFrom_le sounds (List.getElem?_eq_getElem known)
  have read : ∀ n ∈ List.range' (log.readFrom first) (last + 1 - log.readFrom first),
      n < log.count ∧ log.recordIn files.index n = .ok (tell n).1 ∧
        log.text? files n = some (tell n).2 := by
    intro n member
    rw [List.mem_range'_1] at member
    have here : n < revisions.length := by omega
    have found : revisions[n]? = some revisions[n] := List.getElem?_eq_getElem here
    have stored : (revisions.map Written.stored)[n]? = some revisions[n].stored := by
      rw [List.getElem?_map, found]
      rfl
    have told : tell n = (revisions[n].stored.record n
        (Index.start (revisions.map Written.stored) n), revisions[n].text) := by
      show (Written.told revisions)[n]?.getD _ = _
      rw [getElem?_told, found]
      rfl
    rw [told]
    exact ⟨by omega, holds.recordIn_eq (sound_of_sounds sounds) (by rwa [List.length_map]) stored,
      holds.text?_eq sounds few found⟩
  obtain ⟨result, final⟩ := visitContents_gathering gather (sound_of_openFiles opened)
    (holds.proper (sound_of_sounds sounds) (by rwa [List.length_map])) (fun n => (tell n).1)
    (fun n => (tell n).2) read retained_none
  rw [filter_range' early le] at final
  rw [iterate, run_of_range (checkRange_of_le starts stops le inside) opened, part, List.foldl_map]
  exact Prod.ext result final

/-- **A log reads back as it was written**, inline or not, with general deltas or without: it opens,
each record and each content is that of the revision that was written, and an iteration over any
range gives the records and texts in it in order. -/
theorem round_trip {header : Header} (options : Options) {revisions : List Written} {disk : Disk}
    {indexFile : String} (version : header.version = .ng) (some : revisions ≠ [])
    (few : revisions.length < 2 ^ 31)
    (sounds : Written.Sounds header options.strictCompression revisions)
    (index : disk indexFile = .ok (Index.write header (revisions.map Written.stored)))
    (data : header.isInline = false → disk (Path.dataFile indexFile) =
      .ok (Index.writeData (revisions.map Written.stored))) :
    ∃ handle log, Handle.open disk indexFile options = .ok handle ∧ handle.log disk = log ∧
      log.outline.status = .loaded ∧ log.header = header ∧ log.count = revisions.length ∧
      (∀ (n : Nat) (record : Record) (text : Bytes),
        (Written.told revisions)[n]? = Option.some (record, text) →
          log.record disk (Int32.ofNat n) = .ok record ∧
            log.content disk (Int32.ofNat n) = .ok text) ∧
      ∀ (start stop : Revision) (first last : Nat), start.resolve log.count = first →
        stop.resolve log.count = last → first ≤ last → last < log.count →
          ∀ (σ : Type) (gather : Record → Answer → σ → σ) (state : σ),
            log.iterate disk start stop true (Visitor.gathering gather) state =
              (.ok (), (((Written.told revisions).drop first).take (last + 1 - first)).foldl
                (fun state told => gather told.1 (.ok (.bytes told.2)) state) state) := by
  have stored : revisions.map Written.stored ≠ [] := by simpa using some
  have count : (revisions.map Written.stored).length ≤ 2 ^ 31 := by
    rw [List.length_map]
    exact Nat.le_of_lt few
  have indexed := sound_of_sounds sounds
  obtain ⟨handle, opened, outlined⟩ := open_written options version stored count indexed index
  obtain ⟨files, filesOpened, holds⟩ :=
    holds_of_disk (.ofIndex indexFile options) index data
  have known := holds.count_eq
  rw [List.length_map] at known
  have few := Nat.le_of_lt few
  exact ⟨handle, _, opened, outlined, rfl, rfl, known,
    fun n record text => holds.told_eq filesOpened sounds few,
    fun start stop first last starts stops le inside σ gather state =>
      holds.iterate_gathering filesOpened sounds few starts stops le inside gather state⟩

/-- The two revisions of a log with a patch are read back. -/
theorem round_trip_pair : ∃ handle log, Handle.open pairDisk "a.i" {} = .ok handle ∧
    handle.log pairDisk = log ∧ log.count = 2 ∧ log.content pairDisk 1 = .ok [1, 9, 9, 3] ∧
      log.iterate pairDisk 0 .tip true (Visitor.gathering fun _ answer state => state ++ [answer]) [] =
        (.ok (), [.ok (.bytes [1, 2, 3]), .ok (.bytes [1, 9, 9, 3])]) := by
  let revisions : List Written := [⟨[1, 2, 3], pair[0]⟩, ⟨[1, 9, 9, 3], pair[1]⟩]
  have sounds : Written.Sounds {} false revisions
    | 0, _, rfl => ⟨by decide, by decide, by decide, .inr rfl, .full rfl .marked⟩
    | 1, _, rfl => ⟨by decide, by decide, by decide, .inr rfl,
      .patched (show revisions[0]? = some _ from rfl) (by decide) (by decide)
        (show Patch.Fits 3 0 [⟨1, 2, [9, 9]⟩] by decide) rfl .marked⟩
  obtain ⟨handle, log, opened, made, -, -, count, told, iterated⟩ :=
    round_trip {} rfl (List.cons_ne_nil _ _) (by decide) sounds
      (show pairDisk "a.i" = .ok (Index.write {} pair) from rfl)
      (fun _ => show pairDisk "a.d" = .ok (Index.writeData pair) from rfl)
  refine ⟨handle, log, opened, made, count, (told 1 _ _ rfl).2, ?_⟩
  exact iterated 0 .tip 0 1 rfl (by rw [count]; rfl) (by decide) (by rw [count]; decide) _ _ _

end Log

end RevisionLog
