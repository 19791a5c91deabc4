import Mathlib
import RevisionLog.Proofs.Path
import RevisionLog.Proofs.Store.Names
import RevisionLog.Proofs.Text.Split

/-!
# Paths in a store

The text of a path below the directory for all tracked files tells its components
(`Store.splitOn_textOf`), which have no capital letters (`Store.toLower_textOf`). So two paths that
are the same where case does not count, or of which one is a directory on the way to the other, have
components of which one list starts with the other (`Store.prefix_of_clash`). The files of a log
have components that name the tracked file, hence no two tracked files get in each other's way
(`Store.encodePath_unambiguous`).
-/

namespace RevisionLog.Store

variable {path other : String} {b : UInt8} {component file : Bytes}
  {components components' directories : List Bytes}

/-! ## Names of tracked files -/

/-- The names that a path is made of. -/
def names (path : String) : List String := (path.splitOn "/").filter (· ≠ "")

theorem names_eq (path : String) :
    names path = ((path.toList.splitOn '/').filter (· ≠ [])).map String.ofList := by
  have parts : path.splitOn "/" = _ := Text.splitOn_singleton path '/'
  rw [names, parts, List.filter_map]
  congr 1
  apply List.filter_congr
  intro chars _
  simp

theorem slash_notMem_utf8 {name : String} (among : name ∈ names path) : 47 ∉ Text.utf8 name := by
  have part : '/' ∉ name.toList := Text.not_mem_of_mem_splitOn (List.mem_filter.1 among).1
  rwa [← Text.mem_utf8_iff (by decide)] at part

theorem slash_notMem_of_mem_map {name : Bytes} (among : name ∈ (names path).map Text.utf8) :
    47 ∉ name := by
  obtain ⟨text, inside, rfl⟩ := List.mem_map.1 among
  exact slash_notMem_utf8 inside

theorem names_inj (same : (names path).map Text.utf8 = (names other).map Text.utf8) :
    names path = names other := by
  have injective : Function.Injective Text.utf8 := Function.LeftInverse.injective Text.ofBytes_utf8
  exact injective.list_map same

/-- A path that can be the name of a tracked file. -/
structure NamesFile (path : String) : Prop where
  nonempty : names path ≠ []
  dot : "." ∉ names path
  dots : ".." ∉ names path

/-! ## The text of a path -/

/-- The path with some components below the directory for all tracked files. -/
def textOf (components : List Bytes) : String :=
  "/".intercalate ("data" :: components.map Hex.toString)

theorem encodePath_eq (path : String) :
    encodePath path = textOf (encodeComponents ((names path).map Text.utf8)) := rfl

/-- Components that are made of plain bytes without a slash. -/
def Clean (components : List Bytes) : Prop :=
  ∀ component ∈ components, (∀ b ∈ component, IsPlain b) ∧ 47 ∉ component

theorem utf8_toString_of_plain (plain : ∀ b ∈ component, IsPlain b) :
    Text.utf8 (Hex.toString component) = component := by
  apply Text.utf8_toString
  intro b among
  have high : b.toNat ≤ 126 := UInt8.le_iff_toNat_le.1 (plain b among).1.2
  omega

theorem slash_notMem_toString (plain : ∀ b ∈ component, IsPlain b) (clean : 47 ∉ component) :
    '/' ∉ (Hex.toString component).toList := by
  rw [← Text.mem_utf8_iff (by decide), utf8_toString_of_plain plain]
  exact clean

/-- **A path splits into its components.** -/
theorem splitOn_textOf (clean : Clean components) :
    (textOf components).splitOn "/" = "data" :: components.map Hex.toString := by
  have whole : ∀ part ∈ "data" :: components.map Hex.toString, '/' ∉ part.toList := by
    intro part among
    obtain rfl | among := List.mem_cons.1 among
    · decide
    · obtain ⟨component, inside, rfl⟩ := List.mem_map.1 among
      exact slash_notMem_toString (clean component inside).1 (clean component inside).2
  exact Text.splitOn_intercalate (List.cons_ne_nil _ _) whole

theorem map_utf8_toString (clean : Clean components) :
    (components.map Hex.toString).map Text.utf8 = components := by
  rw [List.map_map]
  refine (List.map_congr_left fun component among => ?_).trans (List.map_id _)
  exact utf8_toString_of_plain (clean component among).1

theorem prefix_of_map_toString (clean : Clean components) (clean' : Clean components')
    (front : components.map Hex.toString <+: components'.map Hex.toString) :
    components <+: components' := by
  rw [← map_utf8_toString clean, ← map_utf8_toString clean']
  exact front.map Text.utf8

/-! ## Where case does not count -/

theorem toLower_of_toList {text : String} (same : text.toList.map Char.toLower = text.toList) :
    text.toLower = text := by
  rw [← String.toList_inj, String.toLower, String.toList_map, same]

theorem toLower_append (front back : String) :
    (front ++ back).toLower = front.toLower ++ back.toLower := by
  simp only [String.toLower, ← String.toList_inj, String.toList_map, String.toList_append,
    List.map_append]

theorem toLower_intercalate (parts : List String) :
    ("/".intercalate parts).toLower = "/".intercalate (parts.map String.toLower) := by
  have slash : "/".toLower = "/" := toLower_of_toList rfl
  induction parts with
  | nil => rw [List.map_nil, String.intercalate_nil, toLower_of_toList rfl]
  | cons part parts ih =>
    cases parts with
    | nil => rw [List.map_singleton, String.intercalate_singleton, String.intercalate_singleton]
    | cons next parts =>
      rw [List.map_cons] at ih
      rw [List.map_cons, List.map_cons, String.intercalate_cons_cons, String.intercalate_cons_cons,
        toLower_append, toLower_append, ih, slash]

/-- No plain byte is a capital letter. -/
theorem toLower_of_isPlain (plain : IsPlain b) :
    (Char.ofNat b.toNat).toLower = Char.ofNat b.toNat := by
  have all : ∀ b, IsPlain b → (Char.ofNat b.toNat).toLower = Char.ofNat b.toNat :=
    Bytes.forall_byte (by decide +kernel)
  exact all b plain

theorem toLower_toString (plain : ∀ b ∈ component, IsPlain b) :
    (Hex.toString component).toLower = Hex.toString component := by
  apply toLower_of_toList
  rw [Hex.toString, String.toList_ofList, List.map_map]
  exact List.map_congr_left fun b among => toLower_of_isPlain (plain b among)

theorem toLower_textOf (clean : Clean components) :
    (textOf components).toLower = textOf components := by
  have same : (components.map Hex.toString).map String.toLower = components.map Hex.toString := by
    rw [List.map_map]
    exact List.map_congr_left fun component among => toLower_toString (clean component among).1
  rw [textOf, toLower_intercalate, List.map_cons, same, toLower_of_toList rfl]

/-- Where case does not count, two paths are the same, or one is a directory on the way to the
other. -/
def Clash (path other : String) : Prop :=
  path.toLower = other.toLower ∨ (∃ below, path.toLower ++ "/" ++ below = other.toLower) ∨
    ∃ below, other.toLower ++ "/" ++ below = path.toLower

theorem prefix_of_below (clean : Clean components) (clean' : Clean components') {below : String}
    (onTheWay : textOf components ++ "/" ++ below = textOf components') :
    components <+: components' := by
  have parts : (textOf components ++ "/" ++ below).splitOn "/" =
      (textOf components).splitOn "/" ++ below.splitOn "/" :=
    Text.splitOn_append (textOf components) below '/'
  rw [onTheWay, splitOn_textOf clean', splitOn_textOf clean, List.cons_append, List.cons.injEq]
    at parts
  exact prefix_of_map_toString clean clean' ⟨below.splitOn "/", parts.2.symm⟩

theorem prefix_of_clash (clean : Clean components) (clean' : Clean components')
    (clash : Clash (textOf components) (textOf components')) :
    components <+: components' ∨ components' <+: components := by
  rw [Clash, toLower_textOf clean, toLower_textOf clean'] at clash
  obtain same | ⟨below, onTheWay⟩ | ⟨below, onTheWay⟩ := clash
  · have parts := splitOn_textOf clean
    rw [same, splitOn_textOf clean', List.cons.injEq] at parts
    exact .inl (prefix_of_map_toString clean clean' (parts.2 ▸ List.prefix_rfl))
  · exact .inl (prefix_of_below clean clean' onTheWay)
  · exact .inr (prefix_of_below clean' clean onTheWay)

/-! ## The files of a log -/

theorem slash_notMem_markDirectory {name : Bytes} (clean : 47 ∉ name) :
    47 ∉ markDirectory name := by
  by_cases looks : LooksLikeFile name
  · rw [markDirectory_of_looksLikeFile looks, List.mem_append, not_or]
    exact ⟨clean, by decide⟩
  · rwa [markDirectory_of_not looks]

theorem clean_fileComponents {ending : String} (kind : ending ∈ endings)
    (clean : ∀ name ∈ directories ++ [file], 47 ∉ name) :
    Clean (fileComponents ending directories file) := by
  have ends : ∀ ending ∈ endings, 47 ∉ Text.utf8 ending := by decide
  intro component among
  obtain inside | last := List.mem_append.1 among
  · obtain ⟨directory, member, rfl⟩ := List.mem_map.1 inside
    have source := slash_notMem_markDirectory (clean directory (List.mem_append_left _ member))
    exact ⟨fun _ => isPlain_of_mem_encodeName, slash_notMem_encodeName source⟩
  · obtain rfl := List.mem_singleton.1 last
    have source : 47 ∉ file ++ Text.utf8 ending := by
      rw [List.mem_append, not_or]
      exact ⟨clean file (List.mem_append_right _ List.mem_cons_self), ends ending kind⟩
    exact ⟨fun _ => isPlain_of_mem_encodeName, slash_notMem_encodeName source⟩

theorem clean_encodeComponents {names : List Bytes} (clean : ∀ name ∈ names, 47 ∉ name) :
    Clean (encodeComponents names) := by
  obtain rfl | ⟨directories, file, rfl⟩ := List.eq_nil_or_concat names
  · exact fun _ among => absurd among List.not_mem_nil
  · rw [List.concat_eq_append] at clean ⊢
    rw [encodeComponents_concat]
    exact clean_fileComponents List.mem_cons_self clean

theorem isPlain_of_mem_splitOn {element : String}
    (among : element ∈ (encodePath path).splitOn "/") : ∀ b ∈ Text.utf8 element, IsPlain b := by
  have clean : Clean (encodeComponents ((names path).map Text.utf8)) :=
    clean_encodeComponents fun _ => slash_notMem_of_mem_map
  rw [encodePath_eq, splitOn_textOf clean] at among
  obtain rfl | among := List.mem_cons.1 among
  · decide +kernel
  · obtain ⟨component, inside, rfl⟩ := List.mem_map.1 among
    have plain := (clean component inside).1
    rwa [utf8_toString_of_plain plain]

theorem toString_append (front back : Bytes) :
    Hex.toString (front ++ back) = Hex.toString front ++ Hex.toString back := by
  rw [Hex.toString, List.map_append, String.ofList_append]
  rfl

theorem toString_encodeName_injective :
    Function.Injective fun name : String => Hex.toString (encodeName (Text.utf8 name)) := by
  intro name other same
  have bytes := congrArg Text.utf8 same
  dsimp only at bytes
  rw [utf8_toString_of_plain fun _ => isPlain_of_mem_encodeName,
    utf8_toString_of_plain fun _ => isPlain_of_mem_encodeName] at bytes
  rw [← Text.ofBytes_utf8 name, encodeName_injective bytes, Text.ofBytes_utf8]

theorem textOf_fileComponents (ending : String) (directories : List Bytes) (file : Bytes) :
    textOf (fileComponents ending directories file) =
      textOf (directories.map fun directory => encodeName (markDirectory directory)) ++ "/" ++
        Hex.toString (encodeName file) ++ Hex.toString (encodeName (Text.utf8 ending)) := by
  rw [textOf, fileComponents, List.map_append, ← List.cons_append,
    String.intercalate_append_of_ne_nil (List.cons_ne_nil _ _) (by simp), ← textOf,
    List.map_singleton, String.intercalate_singleton, encodeName, List.flatMap_append,
    toString_append, ← String.append_assoc]
  rfl

/-- The files of the log of a tracked file. -/
def logFiles (path : String) : List String := [encodePath path, Path.dataFile (encodePath path)]

/-- The files of the log of the tracked file with a name in some directories. -/
structure HasFiles (path : String) (directories : List Bytes) (file : Bytes) : Prop where
  names : (names path).map Text.utf8 = directories ++ [file]
  clean : ∀ name ∈ directories ++ [file], 47 ∉ name
  index : encodePath path = textOf (fileComponents ".i" directories file)
  data : Path.dataFile (encodePath path) = textOf (fileComponents ".d" directories file)

theorem exists_hasFiles (named : NamesFile path) :
    ∃ directories file, HasFiles path directories file := by
  obtain empty | ⟨directories, file, shape⟩ := List.eq_nil_or_concat (names path)
  · exact absurd empty named.nonempty
  rw [List.concat_eq_append] at shape
  have among : file ∈ names path := by simp [shape]
  have split : (names path).map Text.utf8 = directories.map Text.utf8 ++ [Text.utf8 file] := by
    simp [shape]
  have index : encodePath path =
      textOf (fileComponents ".i" (directories.map Text.utf8) (Text.utf8 file)) := by
    rw [← encodeComponents_concat, ← split, encodePath_eq]
  refine ⟨_, _, split, split ▸ fun _ => slash_notMem_of_mem_map, index, ?_⟩
  -- The name of the index is that of the file with `.i` behind it, so its stem is the file's own.
  have nonempty : file ≠ "" := by simpa using (List.mem_filter.1 among).2
  have dot : file ≠ "." := fun same => named.dot (same ▸ among)
  rw [index, textOf_fileComponents, textOf_fileComponents]
  refine Path.dataFile_of_index ?_ ?_ ?_
  · exact slash_notMem_toString (fun _ => isPlain_of_mem_encodeName)
      (slash_notMem_encodeName (slash_notMem_utf8 among))
  · exact fun same => nonempty (@toString_encodeName_injective file "" same)
  · exact fun same => dot (@toString_encodeName_injective file "." same)

theorem HasFiles.of_mem {place : String} (files : HasFiles path directories file)
    (among : place ∈ logFiles path) :
    ∃ ending ∈ endings, place = textOf (fileComponents ending directories file) := by
  obtain rfl | among := List.mem_cons.1 among
  · exact ⟨".i", List.mem_cons_self, files.index⟩
  · obtain rfl := List.mem_singleton.1 among
    exact ⟨".d", List.mem_cons_of_mem _ List.mem_cons_self, files.data⟩

theorem dataFile_encodePath (named : NamesFile path) :
    Path.dataFile (encodePath path) =
      String.ofList ((encodePath path).toList.dropLast ++ ['d']) := by
  obtain ⟨directories, file, files⟩ := exists_hasFiles named
  have index : Hex.toString (encodeName (Text.utf8 ".i")) = ".i" := by decide
  have data : Hex.toString (encodeName (Text.utf8 ".d")) = ".d" := by decide
  rw [files.data, files.index, textOf_fileComponents, textOf_fileComponents, index, data,
    ← String.toList_inj]
  simp [List.dropLast_append_of_ne_nil, List.dropLast_cons_of_ne_nil]

theorem names_eq_of_clash (named : NamesFile path) (named' : NamesFile other)
    {place place' : String} (among : place ∈ logFiles path) (among' : place' ∈ logFiles other)
    (clash : Clash place place') : names path = names other := by
  obtain ⟨directories, file, files⟩ := exists_hasFiles named
  obtain ⟨directories', file', files'⟩ := exists_hasFiles named'
  obtain ⟨ending, kind, rfl⟩ := files.of_mem among
  obtain ⟨ending', kind', rfl⟩ := files'.of_mem among'
  have same : directories = directories' ∧ file = file' := by
    obtain front | front := prefix_of_clash (clean_fileComponents kind files.clean)
      (clean_fileComponents kind' files'.clean) clash
    · exact eq_of_prefix_fileComponents kind kind' front
    · exact (eq_of_prefix_fileComponents kind' kind front).imp Eq.symm Eq.symm
  apply names_inj
  rw [files.names, files'.names, same.1, same.2]

/-- **Paths in a store are unambiguous.** Their elements are plain, the data file of a tracked file
differs from its index in the last character, and the files of different tracked files do not get in
each other's way, not even where case does not count. -/
theorem encodePath_unambiguous (path other : String) :
    (∀ element ∈ (encodePath path).splitOn "/", ∀ b ∈ Text.utf8 element, IsPlain b) ∧
      (NamesFile path → Path.dataFile (encodePath path) =
        String.ofList ((encodePath path).toList.dropLast ++ ['d'])) ∧
      (NamesFile path → NamesFile other → names path ≠ names other →
        (encodePath path).toLower ≠ (encodePath other).toLower ∧
          ∀ file ∈ logFiles path, ∀ file' ∈ logFiles other, ¬Clash file file') := by
  refine ⟨fun _ => isPlain_of_mem_splitOn, dataFile_encodePath, fun named named' differ => ?_⟩
  have apart : ∀ file ∈ logFiles path, ∀ file' ∈ logFiles other, ¬Clash file file' :=
    fun _ among _ among' clash => differ (names_eq_of_clash named named' among among' clash)
  exact ⟨fun same => apart _ List.mem_cons_self _ List.mem_cons_self (.inl same), apart⟩

/-- A file in a directory that is named like the index of another file. -/
theorem encodePath_pair :
    (NamesFile "a.i/b" ∧ NamesFile "a" ∧ names "a.i/b" ≠ names "a") ∧
      (encodePath "a.i/b").toLower ≠ (encodePath "a").toLower ∧
        ∀ file ∈ logFiles "a.i/b", ∀ file' ∈ logFiles "a", ¬Clash file file' := by
  have deep : names "a.i/b" = ["a.i", "b"] := by
    rw [names_eq]
    decide
  have flat : names "a" = ["a"] := by
    rw [names_eq]
    decide
  have named : NamesFile "a.i/b" := ⟨by simp [deep], by simp [deep], by simp [deep]⟩
  have named' : NamesFile "a" := ⟨by simp [flat], by simp [flat], by simp [flat]⟩
  have differ : names "a.i/b" ≠ names "a" := by simp [deep, flat]
  exact ⟨⟨named, named', differ⟩, (encodePath_unambiguous "a.i/b" "a").2.2 named named' differ⟩

example : encodePath "a.i/B" = "data/a.i.hg/_b.i" := by
  rw [encodePath_eq, names_eq]
  rfl

end RevisionLog.Store
