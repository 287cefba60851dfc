import ChipEight.Text.Quoted
import ChipEight.Word

/-!
# Files

A directory with files and directories below it, and how a path is followed from there. The path is
taken piece by piece: `.` and empty pieces stay, and `..` goes up. The directory stands among the
temporary files of a system, of which only the directories that every system has are known, and the
empty file `/dev/null`.

* `read_of_long`: a path that is too long is refused whatever it leads to.
-/

namespace ChipEight

/-- Why a file cannot be read. -/
inductive FileError where
  | missing
  | notADirectory
  | isADirectory
  | nameTooLong
  deriving DecidableEq, Repr

/-- The text of a refusal to read a path. -/
def FileError.message (path : String) : FileError → String
  | .missing => "[Errno 2] No such file or directory: " ++ quoted path
  | .notADirectory => "[Errno 20] Not a directory: " ++ quoted path
  | .isADirectory => "[Errno 21] Is a directory: " ++ quoted path
  | .nameTooLong => "[Errno 36] File name too long: " ++ quoted path

/-- Reading a file by its path. -/
abbrev FileReader := String → Except FileError (List Byte)

/-- The pieces of a text between its slashes. -/
def pieces : List Char → List (List Char)
  | [] => [[]]
  | '/' :: rest => [] :: pieces rest
  | c :: rest =>
    match pieces rest with
    | [] => [[c]]
    | piece :: others => (c :: piece) :: others

/-- What follows the last slash of a path. -/
def baseName (path : String) : String :=
  String.ofList ((pieces path.toList).getLastD [])

/-- A directory; each entry has the names that lead to it, and the bytes of a file or nothing for
a directory. Directories on the way to an entry need no entry of their own, and of two entries with
the same names the first counts. -/
structure FileTree where
  entries : List (List String × Option (List Byte))

namespace FileTree

/-- Where a path has led so far. -/
inductive Place where
  /-- A directory of the tree. -/
  | inside (names : List String)
  /-- A directory of the system, by its names from the root. -/
  | system (names : List String)
  | file (bytes : List Byte)
  deriving DecidableEq

/-- The directory of the system that the tree stands in. -/
def Place.home : Place := .system ["tmp"]

/-- The directory above a directory; the root is above itself. -/
def Place.up : Place → Place
  | .inside names => if names.isEmpty then .home else .inside names.dropLast
  | .system names => .system names.dropLast
  | .file bytes => .file bytes

/-- What the tree has under some names. -/
def at? (tree : FileTree) (names : List String) : Option Place :=
  match tree.entries.find? (·.1 == names) with
  | some (_, some bytes) => some (.file bytes)
  | some (_, none) => some (.inside names)
  | none => if tree.entries.any (names.isPrefixOf ·.1) then some (.inside names) else none

/-- The directories that every system has at its root. -/
def rootDirectories : List String :=
  ["bin", "boot", "dev", "etc", "home", "lib", "media", "mnt", "opt", "proc", "root", "run", "sbin",
    "srv", "sys", "tmp", "usr", "var"]

/-- The directories that every system has in those at its root. -/
def innerDirectories : List (String × String) :=
  [("dev", "pts"), ("dev", "shm"), ("usr", "bin"), ("usr", "include"), ("usr", "lib"),
    ("usr", "local"), ("usr", "sbin"), ("usr", "share"), ("var", "cache"), ("var", "lib"),
    ("var", "log"), ("var", "tmp")]

/-- What every system has under some names from its root. -/
def system? (names : List String) : Option Place :=
  match names with
  | [name] => if rootDirectories.contains name then some (.system names) else none
  | ["dev", "null"] => some (.file [])
  | [outer, inner] =>
    if innerDirectories.contains (outer, inner) then some (.system names) else none
  | _ => none

/-- What a place has under a name. -/
def child? (tree : FileTree) (place : Place) (name : String) : Option Place :=
  match place with
  | .inside names => tree.at? (names ++ [name])
  | .system names => system? (names ++ [name])
  | .file _ => none

/-- The longest name, in bytes. -/
def maxName : Nat := 255

/-- The longest path, in bytes. -/
def maxPath : Nat := 4095

/-- Follow one piece of a path. -/
def follow (tree : FileTree) (place : Place) (piece : String) : Except FileError Place :=
  if place matches .file _ then .error .notADirectory
  else if piece = "" ∨ piece = "." then .ok place
  else if piece = ".." then .ok place.up
  else if maxName < piece.utf8ByteSize then .error .nameTooLong
  else
    match tree.child? place piece with
    | some found => .ok found
    | none => .error .missing

/-- Read the file that a path leads to. -/
def read (tree : FileTree) : FileReader := fun path =>
  if path = "" then .error .missing
  else if maxPath < path.utf8ByteSize then .error .nameTooLong
  else do
    let start : Place := if path.toList.head? = some '/' then .system [] else .inside []
    match ← ((pieces path.toList).map String.ofList).foldlM tree.follow start with
    | .file bytes => .ok bytes
    | _ => .error .isADirectory

/-- Where a relative path leads, and before that where it passes, the last place first. -/
def walk (path : String) : List (List String) :=
  ((pieces path.toList).map String.ofList).foldl
    (fun visited piece =>
      let names := visited.headD []
      if piece = "" ∨ piece = "." then visited
      else if piece = ".." then names.dropLast :: visited
      else (names ++ [piece]) :: visited)
    []

/-- The tree of entries that are made one after the other at relative paths, with the directories
that the paths pass; a later one replaces an earlier one. -/
def ofPaths (entries : List (String × Option (List Byte))) : FileTree :=
  ⟨entries.reverse.flatMap fun (path, bytes) =>
    match walk path with
    | [] => []
    | names :: passed => (names, bytes) :: passed.map (·, none)⟩

theorem read_of_long (tree : FileTree) {path : String} (h : maxPath < path.utf8ByteSize) :
    tree.read path = .error .nameTooLong := by
  have nonempty : path ≠ "" := by
    rintro rfl
    exact absurd h (by decide)
  simp [read, nonempty, h]

end FileTree
end ChipEight
