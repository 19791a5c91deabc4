import Mathlib
import RevisionLog.Path

/-!
# The data file beside an index

A path is taken apart at its last slash (`Path.split?_of_name`) and the name behind it at its last
dot (`Path.splitDot?_of_extension`). So the data file of an index `x.i` is `x.d`
(`Path.dataFile_of_index`). No index with the extension `i` is its own data file
(`Path.dataFile_ne`).
-/

namespace RevisionLog.Path

variable {path front name stem extension behind : List Char} {c : Char}

/-- Behind the final component of a path there is nothing to cut off, unless it is a single dot. -/
theorem stripEnd_of_name (clean : '/' ∉ name) (nonempty : name ≠ []) (dot : name ≠ ['.']) :
    stripEnd (name.reverse ++ behind) = name.reverse ++ behind := by
  have clean : '/' ∉ name.reverse := by simpa using clean
  have dot : name.reverse ≠ ['.'] := by simpa using dot
  have nonempty : name.reverse ≠ [] := by simpa using nonempty
  apply stripEnd.eq_3
  · intro rest slash
    rcases shape : name.reverse with _ | ⟨c, name⟩ <;> simp_all
  · intro rest slash
    rcases shape : name.reverse with _ | ⟨c, _ | ⟨d, name⟩⟩ <;> simp_all

theorem ne_of_notMem_reverse (clean : c ∉ name) : ∀ d ∈ name.reverse, decide (d ≠ c) = true := by
  intro d among
  have distinct : d ≠ c := fun same => clean (by simpa [same] using among)
  simpa using distinct

/-- A path whose last slash stands before a name other than the two that name no file. -/
theorem split?_of_name (clean : '/' ∉ name) (nonempty : name ≠ []) (dot : name ≠ ['.'])
    (dots : name ≠ ['.', '.']) :
    split? (front ++ '/' :: name) = some (front ++ ['/'], name) := by
  have reversed : (front ++ '/' :: name).reverse = name.reverse ++ '/' :: front.reverse := by simp
  have before := ne_of_notMem_reverse clean
  simp only [split?, reversed, stripEnd_of_name clean nonempty dot,
    List.takeWhile_append_of_pos before, List.dropWhile_append_of_pos before]
  simp [nonempty, dot, dots]

theorem splitDot?_of_extension (nonempty : stem ≠ []) (clean : '.' ∉ extension) :
    splitDot? (stem ++ '.' :: extension) = some (stem, extension) := by
  have reversed :
      (stem ++ '.' :: extension).reverse = extension.reverse ++ '.' :: stem.reverse := by
    simp
  have before := ne_of_notMem_reverse clean
  simp only [splitDot?, reversed, List.takeWhile_append_of_pos before,
    List.dropWhile_append_of_pos before]
  simp

/-- **The data file of an index `x.i` is `x.d`.** -/
theorem dataFile_of_index {front stem : String} (clean : '/' ∉ stem.toList) (nonempty : stem ≠ "")
    (dot : stem ≠ ".") :
    dataFile (front ++ "/" ++ stem ++ ".i") = front ++ "/" ++ stem ++ ".d" := by
  have nonempty : stem.toList ≠ [] := by simpa using nonempty
  have dot : stem.toList ≠ ['.'] := fun same => dot (String.toList_inj.1 same)
  have index : (front ++ "/" ++ stem ++ ".i").toList =
      front.toList ++ '/' :: (stem.toList ++ ['.', 'i']) := by
    simp
  have named : split? (front.toList ++ '/' :: (stem.toList ++ ['.', 'i'])) =
      some (front.toList ++ ['/'], stem.toList ++ ['.', 'i']) :=
    split?_of_name (by simp [clean]) (by simp)
      (fun same => by simpa using congrArg List.reverse same)
      (fun same => by simpa using congrArg List.reverse same)
  have marked : extension? (front.toList ++ '/' :: (stem.toList ++ ['.', 'i'])) = some ['i'] := by
    simp [extension?, named, splitDot?_of_extension nonempty (by simp : '.' ∉ ['i'])]
  -- What is taken apart next is the text without its last character.
  have shortened : (front.toList ++ '/' :: (stem.toList ++ ['.', 'i'])).dropLast =
      front.toList ++ '/' :: (stem.toList ++ ['.']) := by
    simp [List.dropLast_append_of_ne_nil, List.dropLast_cons_of_ne_nil]
  have cut : split? (front.toList ++ '/' :: (stem.toList ++ ['.'])) =
      some (front.toList ++ ['/'], stem.toList ++ ['.']) :=
    split?_of_name (by simp [clean]) (by simp) (by simp [nonempty])
      (fun same => dot (by simpa using congrArg List.dropLast same))
  have replaced : setExtension (front.toList ++ '/' :: (stem.toList ++ ['.'])) ['d'] =
      front.toList ++ '/' :: (stem.toList ++ ['.', 'd']) := by
    simp [setExtension, cut, splitDot?_of_extension nonempty (List.not_mem_nil : '.' ∉ [])]
  rw [dataFile, index, if_pos marked, shortened, replaced]
  simp [← String.toList_inj]

/-- The extension of a path ends as the path does. -/
theorem getLast?_of_extension (slash : c ≠ '/') (dot : c ≠ '.')
    (found : extension? (path ++ [c]) = some extension) : extension.getLast? = some c := by
  have reversed : (path ++ [c]).reverse = c :: path.reverse := List.reverse_concat
  have stripped : stripEnd (c :: path.reverse) = c :: path.reverse :=
    stripEnd.eq_3 _ (fun _ same => slash (List.cons.inj same).1)
      fun _ same => dot (List.cons.inj same).1
  obtain ⟨⟨front, name⟩, split, found⟩ := Option.bind_eq_some_iff.1 found
  obtain ⟨⟨stem, behind⟩, parted, same⟩ := Option.bind_eq_some_iff.1 found
  obtain rfl : behind = extension := Option.some.inj same
  have name_eq : name.reverse = c :: path.reverse.takeWhile (· ≠ '/') := by
    simp only [split?, reversed, stripped] at split
    split at split
    · cases split
    · cases split
      simp [slash]
  simp only [splitDot?, name_eq] at parted
  split at parted
  · cases parted
  · cases parted
    simp [dot]

theorem setExtension_eq (path extension : List Char) :
    setExtension path extension = path ∨
      ∃ before, setExtension path extension = before ++ '.' :: extension := by
  rw [setExtension]
  split
  · exact .inl rfl
  · exact .inr ⟨_, rfl⟩

/-- The data file of an index with the extension `i` is another file. -/
theorem dataFile_ne {index : String} (named : extension? index.toList = some ['i']) :
    dataFile index ≠ index := by
  intro same
  have same : setExtension index.toList.dropLast ['d'] = index.toList := by
    rw [← String.toList_inj, dataFile, if_pos named, String.toList_ofList] at same
    exact same
  obtain kept | ⟨before, ends⟩ := setExtension_eq index.toList.dropLast ['d']
  · -- Only the empty path has nothing to drop, and that has no extension.
    have length := congrArg List.length (kept.symm.trans same)
    rw [List.length_dropLast] at length
    rw [List.eq_nil_of_length_eq_zero (by omega : index.toList.length = 0)] at named
    cases named
  · rw [← same, ends, List.append_cons] at named
    have last := getLast?_of_extension (by decide) (by decide) named
    cases last

end RevisionLog.Path
