import LuaCodex.Path

/-!
This module contains file systems of regular files and directories, as a program sees them that runs
in one of the directories. Paths are followed segment by segment, and each segment but the last has
to lead to a directory. The operating system can refuse to read a file or to list a directory that
is there.
-/

namespace LuaCodex

/--
The names on the way from the root to an entry of a file system.
-/
abbrev Location := List String

/--
An entry of a file system.
-/
inductive Node where
  | file (content : List UInt8)
  | directory
deriving DecidableEq, Repr

/--
A reason for which the operating system refuses an operation.
-/
inductive AccessError where
  | notFound
  | inputOutput
  | permissionDenied
  | alreadyExists
  | notDirectory
  | isDirectory
deriving DecidableEq, Repr

/--
The words of the operating system.
-/
def AccessError.message : AccessError → String
  | notFound => "No such file or directory (os error 2)"
  | inputOutput => "Input/output error (os error 5)"
  | permissionDenied => "Permission denied (os error 13)"
  | alreadyExists => "File exists (os error 17)"
  | notDirectory => "Not a directory (os error 20)"
  | isDirectory => "Is a directory (os error 21)"

/--
A file system. The root is a directory without being listed. A directory is listed in the order of
the entries.
-/
structure FileTree where
  entries : List (Location × Node)
  /-- The directory at which relative paths start. -/
  workdir : Location := []
  /-- The locations whose entries cannot be read, and why. -/
  refusals : List (Location × AccessError) := []
deriving DecidableEq, Repr

namespace FileTree

/--
The entry at a location.
-/
def node? (t : FileTree) (at' : Location) : Option Node :=
  if at' = [] then some .directory else t.entries.lookup at'

/--
The reason for which the file at a location is not read or the directory there is not listed.
-/
def refusal? (t : FileTree) (at' : Location) : Option AccessError :=
  t.refusals.lookup at'

/--
The location to which a segment of a path leads from a directory.
-/
def descend (here : Location) (segment : List Char) : Location :=
  if segment = [] || segment = ['.'] then here
  else if segment = ['.', '.'] then here.dropLast
  else here ++ [String.ofList segment]

/--
Follow segments from a location. They can only be followed from directories.
-/
def follow (t : FileTree) : Location → List (List Char) → Except AccessError (Location × Node)
  | here, [] =>
    match t.node? here with
    | some node => .ok (here, node)
    | none => .error .notFound
  | here, segment :: segments =>
    match t.node? here with
    | some .directory => t.follow (descend here segment) segments
    | some (.file _) => .error .notDirectory
    | none => .error .notFound

/--
The location at which a path starts.
-/
def origin (t : FileTree) (p : Path) : Location :=
  if p.isAbsolute then [] else t.workdir

/--
The location and the entry to which a path leads.
-/
def resolve (t : FileTree) (p : Path) : Except AccessError (Location × Node) :=
  if p.text = "" then .error .notFound else t.follow (t.origin p) p.segments

/--
Decide whether a path leads to a regular file.
-/
def isFile (t : FileTree) (p : Path) : Bool :=
  match t.resolve p with
  | .ok (_, .file _) => true
  | _ => false

/--
Decide whether a path leads to a directory.
-/
def isDirectory (t : FileTree) (p : Path) : Bool :=
  match t.resolve p with
  | .ok (_, .directory) => true
  | _ => false

/--
Decide whether a path leads anywhere.
-/
def leadsSomewhere (t : FileTree) (p : Path) : Bool :=
  match t.resolve p with
  | .ok _ => true
  | .error _ => false

/--
The content of a file.
-/
def read (t : FileTree) (p : Path) : Except AccessError (List UInt8) := do
  let (location, node) ← t.resolve p
  match t.refusal? location, node with
  | some e, _ => throw e
  | none, .file content => return content
  | none, .directory => throw .isDirectory

/--
The names in a directory.
-/
def list (t : FileTree) (p : Path) : Except AccessError (List String) := do
  let (here, node) ← t.resolve p
  match t.refusal? here, node with
  | _, .file _ => throw .notDirectory
  | some e, .directory => throw e
  | none, .directory =>
    return t.entries.filterMap fun (location, _) =>
      if location.dropLast = here then location.getLast? else none

/--
The names in the directory to which a path leads. There are none if it cannot be listed.
-/
def names (t : FileTree) (p : Path) : List String :=
  (t.list p).toOption.getD []

/--
Put an entry at a location.
-/
def put (t : FileTree) (location : Location) (node : Node) : FileTree :=
  { t with entries := t.entries.filter (·.1 ≠ location) ++ [(location, node)] }

/--
The segments of a path up to the last one, and the last one. Slashes at the end do not count.
-/
def splitLast (p : Path) : List (List Char) × List Char :=
  let segments := (p.segments.reverse.dropWhile (· = [])).reverse
  (segments.dropLast, segments.getLast?.getD [])

/--
Write a file. A file at the place is replaced.
-/
def write (t : FileTree) (p : Path) (content : List UInt8) : Except AccessError FileTree :=
  match t.resolve p with
  | .ok (location, .file _) => .ok (t.put location (.file content))
  | .ok (_, .directory) => .error .isDirectory
  | .error e => do
    let (parents, name) := splitLast p
    match ← t.follow (t.origin p) parents with
    | (here, .directory) =>
      if e = .notFound && p.segments.getLast? = some name then
        return t.put (here ++ [String.ofList name]) (.file content)
      else
        throw e
    | _ => throw .notDirectory

/--
Make a directory. The directory in which it lies has to exist.
-/
def makeDirectory (t : FileTree) (p : Path) : Except AccessError FileTree := do
  if p.text = "" then
    throw .notFound
  let (parents, name) := splitLast p
  match ← t.follow (t.origin p) parents with
  | (_, .file _) => throw .notDirectory
  | (here, .directory) =>
    let location := descend here name
    if name = ['.'] || name = ['.', '.'] || (t.node? location).isSome then
      throw .alreadyExists
    else
      return t.put location .directory

/--
Make a directory and all those that are missing on the way to it. It does no harm if it exists. What
has been made stays there if a later step fails.
-/
def makeDirectories (t : FileTree) (p : Path) : FileTree × Option AccessError :=
  go (p.components.length + 1) t p
where
  /--
  Make a directory if its parents are there.
  -/
  settle (t : FileTree) (p : Path) : FileTree × Option AccessError :=
    match t.makeDirectory p with
    | .ok t => (t, none)
    | .error e => (t, if t.isDirectory p then none else some e)
  go : Nat → FileTree → Path → FileTree × Option AccessError
    | 0, t, _ => (t, none)
    | fuel + 1, t, p =>
      if p.components = [] then
        (t, none)
      else
        match settle t p with
        | (t, some .notFound) =>
          match go fuel t (p.parent?.getD ⟨""⟩) with
          | (t, none) => settle t p
          | failed => failed
        | settled => settled

end FileTree
end LuaCodex
