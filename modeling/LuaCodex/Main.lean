import LuaCodex.CommandLine.Run

/-!
This module contains the program itself. It takes a picture of the part of the file system that the
arguments can reach, computes the run on this picture, and carries out what the run has done.
-/

namespace LuaCodex
namespace CommandLine

/--
The text of the absolute path to a location.
-/
def Location.text (location : Location) : String :=
  "/" ++ "/".intercalate location

/--
What a picture shows at a location.
-/
structure Sighting where
  location : Location
  node : Node
  /-- Why the entry cannot be read, if this has been tried without success. -/
  refusal : Option AccessError := none

/--
The reason for which the operating system has refused to read an entry.
-/
def refusalOf : IO.Error → AccessError
  | .permissionDenied .. => .permissionDenied
  | _ => .inputOutput

/--
Take a picture of the entry at a location. A file is read only if its content can matter.
-/
def captureEntry (location : Location) (content : Bool) : IO (List Sighting) := do
  let path := System.mkFilePath [Location.text location]
  if ← path.isDir then
    return [{ location, node := .directory }]
  else if ← path.pathExists then
    if content then
      match ← (IO.FS.readBinFile path).toBaseIO with
      | .ok bytes => return [{ location, node := .file bytes.toList }]
      | .error e => return [{ location, node := .file [], refusal := some (refusalOf e) }]
    else
      return [{ location, node := .file [] }]
  else
    return []

/--
Take a picture of the entries below a location, down to some depth.
-/
def captureBelow : Nat → Location → IO (List Sighting)
  | 0, _ => return []
  | depth + 1, location => do
    let path := System.mkFilePath [Location.text location]
    unless ← path.isDir do
      return []
    match ← path.readDir.toBaseIO with
    | .error e => return [{ location, node := .directory, refusal := some (refusalOf e) }]
    | .ok entries =>
      let mut found := []
      for entry in entries do
        let here := location ++ [entry.fileName]
        let sightings ← captureEntry here (Path.isLua ⟨entry.fileName⟩)
        found := found ++ sightings ++ (← captureBelow depth here)
      return found

/--
Take a picture of the entries on the way along some segments.
-/
def captureAlong (content : Bool) : Location → List (List Char) → IO (List Sighting)
  | here, [] => captureEntry here content
  | here, segment :: segments => do
    let sightings ← captureEntry here false
    return sightings ++ (← captureAlong content (FileTree.descend here segment) segments)

/--
Decide whether a segment of a path has wildcards.
-/
def hasWildcard (segment : List Char) : Bool :=
  segment.any fun c => c == '*' || c == '?' || c == '['

/--
Take a picture of what an argument for files can reach.
-/
def captureInput (workdir : Location) (arg : String) : IO (List Sighting) := do
  let p := Path.mk arg
  let origin := if p.isAbsolute then [] else workdir
  let literal := p.segments.takeWhile (!hasWildcard ·)
  let wild := p.segments.dropWhile (!hasWildcard ·)
  let start := literal.foldl FileTree.descend origin
  let depth := if ['*', '*'] ∈ wild then 256 else wild.length + 1
  return (← captureAlong true origin literal) ++ (← captureBelow depth start)

/--
Take a picture of all that a command line can reach. Of each location one picture is enough, and one
with the content of a file is preferred.
-/
def capture (o : Options) : IO FileTree := do
  let workdir := ((← IO.currentDir).toString.splitOn "/").filter (· ≠ "")
  let along (p : Path) :=
    captureAlong true (if p.isAbsolute then [] else workdir) p.segments
  let inputs ← o.files.mapM (captureInput workdir)
  let globals ← o.globals.toList.mapM along
  let outputs ← o.output.toList.mapM fun p => do
    let codex ← [Format.json, .markdown].mapM fun format => along (codexPath p format)
    return codex.flatten
  let home ← captureAlong false [] (workdir.map String.toList)
  let sightings := (inputs ++ globals ++ outputs).flatten ++ home
  let ranked := sightings.filter (·.node ≠ .file []) ++ sightings
  let entries := ranked.foldl (fun seen sighting =>
    if sighting.location = [] || seen.any (·.1 = sighting.location) then seen
    else seen ++ [(sighting.location, sighting.node)]) []
  let refusals := sightings.filterMap fun sighting =>
    sighting.refusal.map (sighting.location, ·)
  return { entries, workdir, refusals }

/--
Carry out the changes that lead from one file system to another.
-/
def carryOut (before after : FileTree) : IO Unit := do
  for (location, node) in after.entries do
    if before.node? location ≠ some node then
      match node with
      | .directory => IO.FS.createDir (Location.text location)
      | .file content => IO.FS.writeBinFile (Location.text location) ⟨content.toArray⟩

/--
Read a stream to its end.
-/
partial def readToEnd (stream : IO.FS.Stream) (bytes : ByteArray) : IO ByteArray := do
  let more ← stream.read 65536
  if more.isEmpty then
    return bytes
  else
    readToEnd stream (bytes ++ more)

/--
The text that explains the arguments.
-/
def help : String :=
  "Generate a JSON codex from LuaDoc-annotated Lua sources\n\n"
    ++ "Usage: [OPTIONS] [FILES]...\n\n"
    ++ "  -o, --output <DIRECTORY>  Output directory (required when files are given)\n"
    ++ "  -f, --format <FORMAT>     Output format: json (default), markdown\n"
    ++ "      --globals <FILE>      Supplement JSON merged over the parsed classes\n"
    ++ "      --no-globals          Leave out the built-in globals table\n"
    ++ "      --returns <STYLE>     How @return tags are split: named (default), folded\n"
    ++ "      --no-validate         Skip the cross-check of @param tags and arguments\n"
    ++ "  -v, --verbose             More output (-v info, -vv debug)\n"
    ++ "  -q, --quiet               Only report errors\n"
    ++ "  -h, --help                Print help\n"

/--
Run the program and return its exit status.
-/
def execute (args : List String) : IO UInt32 := do
  match Options.ofArgs args with
  | .error .help =>
    IO.print help
    return 0
  | .error .usage =>
    IO.eprintln "error: invalid arguments (try --help)"
    return 2
  | .ok o =>
    let tree ← capture o
    let stdin ← if o.files = [] then readToEnd (← IO.getStdin) .empty else pure .empty
    let outcome := run o tree stdin.toList
    IO.print outcome.stdout
    IO.eprint (outcome.stderr o)
    carryOut tree outcome.tree
    return outcome.status.toUInt32

end CommandLine
end LuaCodex

/--
Run the program on the arguments of its command line.
-/
def main (args : List String) : IO UInt32 :=
  LuaCodex.CommandLine.execute args
