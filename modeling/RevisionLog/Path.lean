/-!
# File names

The data file of a log lies beside its index: an index `x.i` has the data file `x.d`, and where the
name does not end in this way its last character gives way to `d`. A name is taken apart as paths
are: slashes and single dots at the end are not part of the final component, `..` is no name, and a
dot that starts a name does not start an extension.
-/

namespace RevisionLog.Path

/-- The characters of a path, last one first, without what follows the final component. -/
def stripEnd : List Char → List Char
  | '/' :: rest => stripEnd rest
  | '.' :: '/' :: rest => stripEnd rest
  | path => path

/-- A path up to the end of its final component, as what comes before that component and the
component itself. There is none in the empty path, a root, and where the path ends in `..` or is a
single dot. -/
def split? (path : List Char) : Option (List Char × List Char) :=
  let stripped := stripEnd path.reverse
  let name := (stripped.takeWhile (· ≠ '/')).reverse
  if name = [] ∨ name = ['.'] ∨ name = ['.', '.'] then none
  else some ((stripped.dropWhile (· ≠ '/')).reverse, name)

/-- The last dot of a name with something before it: what is before and what is behind. -/
def splitDot? (name : List Char) : Option (List Char × List Char) :=
  let extension := (name.reverse.takeWhile (· ≠ '.')).reverse
  match (name.reverse.dropWhile (· ≠ '.')).reverse.dropLast with
  | [] => none
  | stem => some (stem, extension)

/-- The extension of the final component. -/
def extension? (path : List Char) : Option (List Char) := do
  let (_, name) ← split? path
  let (_, extension) ← splitDot? name
  return extension

/-- Puts an extension in the place of that of the final component, or behind it if it has none. What
follows the component is dropped. A path without a final component stays as it is. -/
def setExtension (path extension : List Char) : List Char :=
  match split? path with
  | none => path
  | some (front, name) =>
    let stem := match splitDot? name with
      | some (stem, _) => stem
      | none => name
    front ++ stem ++ '.' :: extension

/-- The data file that belongs to an index file. The extension is cut off the text before it is
replaced, so an index named `..i` keeps only its dots. -/
def dataFile (index : String) : String :=
  let path := index.toList
  String.ofList <|
    if extension? path = some ['i'] then setExtension path.dropLast ['d']
    else path.dropLast ++ ['d']

/-- The path of a file in a directory. -/
def join (directory file : String) : String :=
  if directory.isEmpty || directory.endsWith "/" then directory ++ file
  else directory ++ "/" ++ file

end RevisionLog.Path
