import Mathlib
import RevisionLog.Store
import RevisionLog.Proofs.Bytes
import RevisionLog.Proofs.Text.Utf8

/-!
# Names in a store

An encoded byte can be read back without what follows it (`Store.decodeByte?_encodeByte`), so
different names have different encodings (`Store.encodeName_injective`), and these are made of plain
bytes (`Store.isPlain_of_mem_encodeName`). A directory that would be taken for a file of a log gets
a suffix, which keeps directories apart from each other (`Store.markDirectory_injective`) and from
all files (`Store.markDirectory_ne`). So the components of the path of a file tell what it belongs
to (`Store.eq_of_prefix_fileComponents`).
-/

namespace RevisionLog.Store

variable {b c : UInt8} {name : Bytes}

/-! ## Bytes of names -/

/-- The bytes of encoded names: printable ones of ASCII, no capital letters and none that some file
systems reserve. -/
def IsPlain (b : UInt8) : Prop :=
  (32 ≤ b ∧ b ≤ 126) ∧ ¬(65 ≤ b ∧ b ≤ 90) ∧ b ∉ reserved

instance : DecidablePred IsPlain := fun b =>
  inferInstanceAs (Decidable ((32 ≤ b ∧ b ≤ 126) ∧ ¬(65 ≤ b ∧ b ≤ 90) ∧ b ∉ reserved))

theorem isPlain_of_mem_encodeByte (among : c ∈ encodeByte b) : IsPlain c := by
  have all : ∀ b, (encodeByte b).all (fun c => decide (IsPlain c)) = true :=
    Bytes.forall_byte (by decide +kernel)
  exact of_decide_eq_true (List.all_eq_true.1 (all b) c among)

/-- Only the slash is encoded with a slash. -/
theorem eq_slash_of_mem_encodeByte (among : 47 ∈ encodeByte b) : b = 47 := by
  have all : ∀ b, 47 ∈ encodeByte b → b = 47 := Bytes.forall_byte (by decide +kernel)
  exact all b among

theorem isPlain_of_mem_encodeName (among : c ∈ encodeName name) : IsPlain c := by
  obtain ⟨b, -, inside⟩ := List.mem_flatMap.1 among
  exact isPlain_of_mem_encodeByte inside

theorem slash_notMem_encodeName (clean : 47 ∉ name) : 47 ∉ encodeName name := by
  intro among
  obtain ⟨b, source, inside⟩ := List.mem_flatMap.1 among
  exact clean (eq_slash_of_mem_encodeByte inside ▸ source)

/-- The byte that an encoded name starts with, and what is left behind it. -/
def decodeByte? : Bytes → Option (UInt8 × Bytes)
  | [] => none
  | mark :: rest =>
    if mark = 126 then
      match rest with
      | high :: low :: rest => do
        return ((← Hex.value? high) <<< 4 ||| (← Hex.value? low), rest)
      | _ => none
    else if mark = 95 then
      match rest with
      | c :: rest => some (if c = 95 then 95 else c - 32, rest)
      | [] => none
    else some (mark, rest)

theorem decodeByte?_encodeByte (b : UInt8) (rest : Bytes) :
    decodeByte? (encodeByte b ++ rest) = some (b, rest) := by
  fun_cases encodeByte b with
  | case1 =>
    obtain ⟨high, low, whole⟩ := Hex.halves b
    simp [Hex.pair, decodeByte?, high, low, whole]
  | case2 _ capital =>
    have small : b + 32 ≠ 95 := by grind
    simp [decodeByte?, small]
  | case3 _ _ underscore => simp [decodeByte?, underscore]
  | case4 printable _ other =>
    have mark : b ≠ 126 := by grind
    simp [decodeByte?, mark, other]

/-- By induction on one of the names, reading off a byte of both. -/
theorem encodeName_injective : Function.Injective encodeName := by
  intro name other same
  have read (b : UInt8) (name : Bytes) :
      decodeByte? (encodeName (b :: name)) = some (b, encodeName name) :=
    decodeByte?_encodeByte b (encodeName name)
  induction name generalizing other with
  | nil =>
    cases other with
    | nil => rfl
    | cons c other =>
      have front := read c other
      rw [← same] at front
      cases front
  | cons b name ih =>
    have front := read b name
    rw [same] at front
    cases other with
    | nil => cases front
    | cons c other =>
      obtain ⟨rfl, rest⟩ := Prod.ext_iff.1 (Option.some.inj ((read c other).symm.trans front))
      rw [ih rest.symm]

/-! ## Directories -/

/-- The names that would be taken for files of a log. -/
def LooksLikeFile (name : Bytes) : Prop :=
  ∃ suffix ∈ [".hg", ".i", ".d"], Text.utf8 suffix <:+ name

theorem markDirectory_of_looksLikeFile (looks : LooksLikeFile name) :
    markDirectory name = name ++ Text.utf8 ".hg" := by
  rw [markDirectory, if_pos]
  simpa [LooksLikeFile] using looks

theorem markDirectory_of_not (looks : ¬LooksLikeFile name) : markDirectory name = name := by
  rw [markDirectory, if_neg]
  simpa [LooksLikeFile] using looks

theorem looksLikeFile_append_hg (name : Bytes) : LooksLikeFile (name ++ Text.utf8 ".hg") :=
  ⟨".hg", List.mem_cons_self, List.suffix_append ..⟩

theorem markDirectory_injective : Function.Injective markDirectory := by
  intro name other same
  by_cases looks : LooksLikeFile name <;> by_cases looks' : LooksLikeFile other
  · rw [markDirectory_of_looksLikeFile looks, markDirectory_of_looksLikeFile looks'] at same
    exact List.append_cancel_right same
  · rw [markDirectory_of_looksLikeFile looks, markDirectory_of_not looks'] at same
    exact absurd (same ▸ looksLikeFile_append_hg name) looks'
  · rw [markDirectory_of_not looks, markDirectory_of_looksLikeFile looks'] at same
    exact absurd (same ▸ looksLikeFile_append_hg other) looks
  · rwa [markDirectory_of_not looks, markDirectory_of_not looks'] at same

/-- The endings of the two files of a log. -/
def endings : List String := [".i", ".d"]

/-- No directory has the name of an index or a data file. -/
theorem markDirectory_ne {ending : String} (kind : ending ∈ endings) (name file : Bytes) :
    markDirectory name ≠ file ++ Text.utf8 ending := by
  intro same
  by_cases looks : LooksLikeFile name
  · rw [markDirectory_of_looksLikeFile looks] at same
    have ends : ∀ ending ∈ endings, Text.utf8 ending ≠ [] ∧
        (Text.utf8 ".hg").getLast? ≠ (Text.utf8 ending).getLast? := by
      decide
    have last := congrArg List.getLast? same
    rw [List.getLast?_append_of_ne_nil _ (by decide),
      List.getLast?_append_of_ne_nil _ (ends ending kind).1] at last
    exact (ends ending kind).2 last
  · rw [markDirectory_of_not looks] at same
    exact looks ⟨ending, List.mem_cons_of_mem _ kind, file, same.symm⟩

/-! ## Components -/

/-- The components of the path of a file of a log below the directory for all of them. -/
def fileComponents (ending : String) (directories : List Bytes) (file : Bytes) : List Bytes :=
  directories.map (fun directory => encodeName (markDirectory directory)) ++
    [encodeName (file ++ Text.utf8 ending)]

theorem encodeComponents_concat (directories : List Bytes) (file : Bytes) :
    encodeComponents (directories ++ [file]) = fileComponents ".i" directories file := by
  induction directories with
  | nil => rfl
  | cons directory rest ih =>
    obtain ⟨next, names, shape⟩ :=
      List.exists_cons_of_ne_nil
        (List.append_ne_nil_of_right_ne_nil rest (List.cons_ne_nil file []))
    rw [List.cons_append, shape, encodeComponents, ← shape, ih]
    · rfl
    · exact List.cons_ne_nil _ _

/-- **A file of a log is neither a file of another log nor a directory on the way to one.** -/
theorem eq_of_prefix_fileComponents {ending ending' : String}
    {directories directories' : List Bytes} {file file' : Bytes}
    (kind : ending ∈ endings) (kind' : ending' ∈ endings)
    (onTheWay : fileComponents ending directories file <+:
      fileComponents ending' directories' file') :
    directories = directories' ∧ file = file' := by
  have length : ∀ ending ∈ endings, (Text.utf8 ending).length = 2 := by decide
  obtain same | inside := List.prefix_concat_iff.1 onTheWay
  · obtain ⟨front, last⟩ := List.append_inj' same rfl
    have both : Function.Injective fun directory => encodeName (markDirectory directory) :=
      encodeName_injective.comp markDirectory_injective
    have files := encodeName_injective (List.singleton_inj.1 last)
    have lengths : (Text.utf8 ending).length = (Text.utf8 ending').length := by
      rw [length ending kind, length ending' kind']
    exact ⟨both.list_map front, (List.append_inj' files lengths).1⟩
  · -- Only what a directory is called could stand in front of more.
    have among := inside.subset (List.mem_append_right _ List.mem_cons_self)
    obtain ⟨directory, -, same⟩ := List.mem_map.1 among
    exact absurd (encodeName_injective same) (markDirectory_ne kind directory file)

end RevisionLog.Store
