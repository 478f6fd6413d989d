import LuaCodex.CommandLine.Options
import LuaCodex.Failure
import LuaCodex.Wildcard.Expansion
import LuaCodex.Format
import LuaCodex.Text.Utf8
import LuaCodex.Text.Visible

/-!
This module contains a whole run of the program as a function of its options, the file system and
the standard input.
-/

namespace LuaCodex

/--
Extract the document that a file holds. Only Lua files are supported.
-/
def Document.ofFile (options : Extraction.Options) (path : Path) (text : List Char) :
    Except Failure (Noted Document) :=
  if path.isLua then .ok (ofText options text) else .error (.unsupportedFile path)

namespace CommandLine

/--
The regular files that an argument names: a file names itself, a directory its Lua files, and a
pattern the files that match it.
-/
def inputsOf (tree : FileTree) (arg : String) : Except Failure (List Path) :=
  if tree.isFile ⟨arg⟩ then
    .ok [⟨arg⟩]
  else if tree.isDirectory ⟨arg⟩ then
    match tree.list ⟨arg⟩ with
    | .ok names => .ok ((names.map (Path.mk arg).join).filter fun p => tree.isFile p && p.isLua)
    | .error e => .error (.unlistedDirectory ⟨arg⟩ e)
  else
    match Wildcard.expand tree arg with
    | .ok paths => .ok (paths.filter tree.isFile)
    | .error e => .error (.badPattern arg e)

/--
The notices on an argument that names no file. Directories are exempt.
-/
def inputNotices (tree : FileTree) (arg : String) (paths : List Path) : List Notice :=
  if tree.isDirectory ⟨arg⟩ || paths ≠ [] then [] else [.unmatched arg]

/--
The files that the arguments name, in the order of their components and without repetition. The
notices include those given before a failure.
-/
def inputs (tree : FileTree) (args : List String) : Noted (Except Failure (List Path)) :=
  let rec go : List String → Noted (Except Failure (List Path))
    | [] => { value := .ok [] }
    | arg :: args =>
      match inputsOf tree arg with
      | .error f => { value := .error f }
      | .ok paths =>
        let rest := go args
        { value := rest.value.map (paths ++ ·)
          notices := inputNotices tree arg paths ++ rest.notices }
  let found := go args
  { found with value := found.value.map Path.arrange }

/--
The supplement that the options ask for.
-/
def supplement (o : Options) (tree : FileTree) : Except Failure Supplement := do
  let base := if o.noGlobals then {} else Supplement.board
  match o.globals with
  | none => return base
  | some path =>
    let bytes ← (tree.read path).mapError (.unreadableGlobals path)
    match Text.decode? bytes with
    | none => throw (.undecodableGlobals path)
    | some text =>
      let given ← (Supplement.ofJson (String.ofList text)).mapError (.badSupplement path text)
      return base.overlay given

/--
Read a file. A file that cannot be read or is not supported is skipped.
-/
def readInput (o : Options) (tree : FileTree) (path : Path) : Noted (Option (String × Document)) :=
  let skipped (cause : String) : Noted (Option (String × Document)) :=
    { value := none, notices := [.processing path.text, .skipped path.text cause] }
  match tree.read path with
  | .error e => skipped e.message
  | .ok bytes =>
    match Document.ofFile o.extraction path (Text.decodeLossy bytes) with
    | .error f => skipped f.message
    | .ok doc =>
      { value := some (path.text, doc.value)
        notices := .processing path.text :: doc.notices }

/--
Merge the documents in files.
-/
def readInputs (o : Options) (tree : FileTree) (paths : List Path) : Noted Document :=
  let read := paths.map (readInput o tree)
  let merged := Document.unite (read.filterMap (·.value))
  let count := merged.value.advisories.length
  { value := merged.value
    notices := read.flatMap (·.notices) ++ merged.notices
      ++ (if count = 0 then [] else [.advisories count]) }

/--
What a run has done.
-/
structure Outcome where
  /-- The file system after the run. -/
  tree : FileTree
  /-- The notices given during the run. -/
  notices : List Notice := []
  /-- The text on the standard output. -/
  stdout : String := ""
  /-- Why the run has failed, if it has. -/
  failure : Option Failure := none

/--
Make the codex of the standard input and print it.
-/
def runOnInput (o : Options) (tree : FileTree) (stdin : List UInt8) : Outcome :=
  let doc := Document.ofText o.extraction (Text.decodeLossy stdin)
  match supplement o tree with
  | .error f => { tree, notices := doc.notices, failure := some f }
  | .ok supplement =>
    let codex := Codex.assemble doc.value supplement
    let notices := doc.notices ++ codex.notices
    match Format.ofName? o.formatName with
    | none => { tree, notices, failure := some (.unknownFormat o.formatName) }
    | some format => { tree, notices, stdout := codex.value.text format }

/--
The path of the codex in a directory.
-/
def codexPath (directory : Path) (format : Format) : Path :=
  directory.join ("Codex." ++ format.extension)

/--
Write the codex into a directory, which is made if it is missing.
-/
def writeCodex (tree : FileTree) (directory : Path) (format : Format) (codex : Codex) : Outcome :=
  let path := codexPath directory format
  match tree.makeDirectories directory with
  | (tree, some e) => { tree, failure := some (.noDirectory directory e) }
  | (tree, none) =>
    match tree.write path (codex.text format).toUTF8.toList with
    | .ok tree => { tree, notices := [.writing path.text] }
    | .error e => { tree, notices := [.writing path.text], failure := some (.notWritten path e) }

/--
Make the codex of all files that the arguments name and write it.
-/
def runOnFiles (o : Options) (tree : FileTree) : Outcome :=
  match o.output with
  | none => { tree, failure := some .noOutput }
  | some directory =>
    match Format.ofName? o.formatName with
    | none => { tree, failure := some (.unknownFormat o.formatName) }
    | some format =>
      match supplement o tree with
      | .error f => { tree, failure := some f }
      | .ok supplement =>
        let paths := inputs tree o.files
        match paths.value with
        | .error f => { tree, notices := paths.notices, failure := some f }
        | .ok files =>
          let doc := readInputs o tree files
          let codex := Codex.assemble doc.value supplement
          let written := writeCodex tree directory format codex.value
          { written with
            notices := paths.notices ++ doc.notices ++ codex.notices ++ written.notices }

/--
Run the program.
-/
def run (o : Options) (tree : FileTree) (stdin : List UInt8) : Outcome :=
  if o.files = [] then runOnInput o tree stdin else runOnFiles o tree

/--
The line of the log for a notice. Further lines of its text are indented, and what does not show is
left out, so a control sequence that is not closed takes the line break with it. No sequence goes on
in the line for the next notice.
-/
def logLine (n : Notice) : String :=
  let name := n.level.name
  let padding := if name.length < 5 then " " else ""
  let lines := (Text.lines n.message.toList).map String.ofList
  let line := "[" ++ name ++ padding ++ "] " ++ "\n    ".intercalate lines ++ "\n"
  String.ofList (Text.visible line.toList)

namespace Outcome

/--
The text on the standard error output.
-/
def stderr (outcome : Outcome) (o : Options) : String :=
  String.join ((outcome.notices.filter fun n => o.shows n.level).map logLine)
    ++ (outcome.failure.map Failure.report).getD ""

/--
The exit status of a run.
-/
def status (outcome : Outcome) : Nat :=
  if outcome.failure.isSome then 1 else 0

end Outcome
end CommandLine
end LuaCodex
