import RevisionLog.Disk

/-!
# Directory trees

A tree of directories and files with a current directory at its root. Names are followed component
by component, as file systems do: slashes repeat without effect, a dot stays where it is, two dots
go up, and only directories have components below them. `Tree.disk` is what the files of a tree
hold.
-/

namespace RevisionLog

/-- What is found at a place. -/
inductive Tree.Entry
  | directory
  | file (bytes : Bytes)

/-- The directories and files below the current directory, by the components of their paths. -/
structure Tree where
  entries : List (List String × Tree.Entry) := []

namespace Tree

/-- The components of a path, with those that stay where they are. -/
def components (path : String) : List String := path.splitOn "/"

/-- The components of a path below the current directory. -/
def place (path : String) : List String :=
  (components path).filter fun name => name ≠ "" ∧ name ≠ "."

/-- What is at a place. The current directory is always there. -/
def get? (tree : Tree) (place : List String) : Option Entry :=
  if place = [] then some .directory else tree.entries.lookup place

/-- The places on the way to a place, without the current directory and the place itself. -/
def ancestors (place : List String) : List (List String) :=
  ((List.range place.length).drop 1).map place.take

/-- Puts an entry at a place, and directories on the way to it. All that was there is gone. -/
def put (tree : Tree) (place : List String) (entry : Entry) : Tree :=
  let above := ancestors place
  let kept := tree.entries.filter fun (other, _) => !place.isPrefixOf other && !above.contains other
  ⟨(place, entry) :: above.map (·, .directory) ++ kept⟩

/-- Writes a file. -/
def write (tree : Tree) (path : String) (bytes : Bytes) : Tree :=
  tree.put (place path) (.file bytes)

/-- Makes a directory that holds one file. -/
def makeDirectory (tree : Tree) (path file : String) (bytes : Bytes) : Tree :=
  (tree.put (place path) .directory).put (place path ++ [file]) (.file bytes)

/-- Removes a file or a directory with all it holds. -/
def remove (tree : Tree) (path : String) : Tree :=
  ⟨tree.entries.filter fun (other, _) => !(place path).isPrefixOf other⟩

/-- Where following a path has come to. -/
inductive Stop
  /-- A place in the tree that is a directory. -/
  | inside (place : List String)
  /-- A directory above the current one, of which nothing else is known. -/
  | above
  /-- A regular file. -/
  | file (bytes : Bytes)
  /-- Nothing. -/
  | missing

/-- Follows one component. -/
def follow (tree : Tree) (stop : Stop) (name : String) : Except Fault Stop :=
  match stop with
  | .missing => .ok .missing
  | .file _ => .error .notDirectory
  | .above => .ok (if name = "" ∨ name = "." ∨ name = ".." then .above else .missing)
  | .inside place =>
    if name = "" ∨ name = "." then .ok stop
    else if name = ".." then .ok (if place = [] then .above else .inside place.dropLast)
    else match tree.get? (place ++ [name]) with
      | none => .ok .missing
      | some .directory => .ok (.inside (place ++ [name]))
      | some (.file bytes) => .ok (.file bytes)

/-- What the files of a tree hold. -/
def disk (tree : Tree) : Disk := fun path =>
  if path.contains (Char.ofNat 0) then .error .nulInName
  else if path = "" then .ok []
  else
    let start : Stop := if path.startsWith "/" then .above else .inside []
    match (components path).foldlM tree.follow start with
    | .error fault => .error fault
    | .ok (.inside _) | .ok .above => .error .isDirectory
    | .ok (.file bytes) => .ok bytes
    | .ok .missing => .ok []

end Tree

end RevisionLog
