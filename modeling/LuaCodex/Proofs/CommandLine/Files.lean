import LuaCodex.Proofs.CommandLine.Supplied
import LuaCodex.Proofs.Document.Unite
import LuaCodex.Proofs.FileTree.Write

/-!
This module contains what a run on files writes. The main statement is that it writes the codex of
all Lua files among its inputs that can be read and skips the other inputs with a warning, and that
for a single file this is what a run on the standard input prints if it is given the content of the
file.
-/

namespace LuaCodex

theorem Path.arrange_singleton (p : Path) : arrange [p] = [p] := rfl

namespace CommandLine

open FileTree

/--
The document in a file, provided that it is a Lua file and can be read.
-/
def luaDocument? (o : Options) (tree : FileTree) (path : Path) : Option (String × Document) :=
  if path.isLua then
    (tree.read path).toOption.map fun bytes =>
      (path.text, (Document.ofText o.extraction (Text.decodeLossy bytes)).value)
  else
    none

/--
The codex of the Lua files among some paths.
-/
def codexOf (o : Options) (tree : FileTree) (given : Supplement) (paths : List Path) : Codex :=
  (Codex.assemble (Document.unite (paths.filterMap (luaDocument? o tree))).value given).value

/--
All that the codex depends on has been found.
-/
structure Prepared (o : Options) (tree : FileTree) (format : Format) (given : Supplement)
    (paths : List Path) : Prop where
  format : Format.ofName? o.formatName = some format
  given : Supplies o tree given
  paths : (inputs tree o.files).value = .ok paths

/--
The place of the codex according to the options.
-/
def codexPath? (o : Options) : Option Path := do
  return codexPath (← o.output) (← Format.ofName? o.formatName)

/--
There is a directory for the codex, and no directory stands in its place.
-/
def HasRoom (o : Options) (tree : FileTree) : Prop :=
  ∃ directory ∈ o.output, tree.isDirectory directory = true
    ∧ ∀ path ∈ codexPath? o, tree.isDirectory path = false

/--
A file system holds a text in the place of the codex.
-/
def Holds (o : Options) (tree : FileTree) (text : String) : Prop :=
  ∃ path ∈ codexPath? o, ∃ location,
    tree.resolve path = .ok (location, .file text.toUTF8.toList)

variable {o : Options} {tree : FileTree} {format : Format} {given : Supplement}
variable {paths : List Path} {directory path : Path} {codex : Codex} {bytes : List UInt8}

theorem value_readInput : (readInput o tree path).value = luaDocument? o tree path := by
  unfold readInput luaDocument? Document.ofFile
  cases hread : tree.read path with
  | error e => simp [Except.toOption]
  | ok bytes => by_cases hlua : path.isLua = true <;> simp [hlua, Except.toOption]

theorem exists_skipped_mem_readInput (h : luaDocument? o tree path = none) :
    ∃ cause, Notice.skipped path.text cause ∈ (readInput o tree path).notices := by
  unfold readInput
  cases hread : tree.read path with
  | error e => exact ⟨e.message, by simp⟩
  | ok bytes =>
    -- The file can be read, so it is not a Lua file.
    have hlua : path.isLua = false := by simpa [luaDocument?, hread, Except.toOption] using h
    exact ⟨(Failure.unsupportedFile path).message, by simp [Document.ofFile, hlua]⟩

theorem value_readInputs :
    (readInputs o tree paths).value
      =
    (Document.unite (paths.filterMap (luaDocument? o tree))).value := by
  have hread : (paths.map (readInput o tree)).filterMap (·.value)
      = paths.filterMap (luaDocument? o tree) := by
    rw [List.filterMap_map]
    congr 1
    funext path
    exact value_readInput
  simp only [readInputs, hread]

theorem exists_endsIn_codexPath (directory : Path) (format : Format) :
    ∃ front, EndsIn (codexPath directory format) front ("Codex." ++ format.extension).toList := by
  cases format with
  | json => exact exists_endsIn_join directory (by decide) (by decide)
  | markdown => exact exists_endsIn_join directory (by decide) (by decide)

theorem exists_of_writeCodex (h : (writeCodex tree directory format codex).failure = none) :
    ∃ made location, tree.makeDirectories directory = (made, none)
      ∧ (writeCodex tree directory format codex).tree
        = made.put location (.file (codex.text format).toUTF8.toList)
      ∧ (writeCodex tree directory format codex).tree.resolve (codexPath directory format)
        = .ok (location, .file (codex.text format).toUTF8.toList) := by
  obtain ⟨front, hfront⟩ := exists_endsIn_codexPath directory format
  rcases hmake : tree.makeDirectories directory with ⟨made, _ | e⟩
  · cases hwrite : made.write (codexPath directory format) (codex.text format).toUTF8.toList with
    | error e => simp only [writeCodex, hmake, hwrite, reduceCtorEq] at h
    | ok after =>
      obtain ⟨location, hput, hresolve⟩ := exists_resolve_of_write hfront hwrite
      simp only [writeCodex, hmake, hwrite]
      exact ⟨made, location, rfl, hput, hresolve⟩
  · simp [writeCodex, hmake] at h

theorem failure_writeCodex {f : Failure}
    (h : (writeCodex tree directory format codex).failure = some f) :
    (∃ e, f = .noDirectory directory e) ∨ ∃ e, f = .notWritten (codexPath directory format) e := by
  rcases hmake : tree.makeDirectories directory with ⟨made, _ | e⟩
  · cases hwrite : made.write (codexPath directory format) (codex.text format).toUTF8.toList with
    | error e =>
      simp only [writeCodex, hmake, hwrite, Option.some_inj] at h
      exact Or.inr ⟨e, h.symm⟩
    | ok after => simp only [writeCodex, hmake, hwrite, reduceCtorEq] at h
  · simp only [writeCodex, hmake, Option.some_inj] at h
    exact Or.inl ⟨e, h.symm⟩

theorem writeCodex_of_isDirectory (hdirectory : tree.isDirectory directory = true)
    (hfree : tree.isDirectory (codexPath directory format) = false) (codex : Codex) :
    (writeCodex tree directory format codex).failure = none := by
  obtain ⟨front, hfront⟩ := exists_endsIn_codexPath directory format
  have hslash : '/' ∉ ("Codex." ++ format.extension).toList := by
    cases format <;> decide
  obtain ⟨here, hhere⟩ := exists_follow_join hdirectory hslash hfront
  obtain ⟨after, hafter⟩ := exists_write_of_follow hfront hhere hfree
    (codex.text format).toUTF8.toList
  unfold writeCodex
  simp only [makeDirectories_of_isDirectory hdirectory, hafter]

theorem exists_runOnFiles_eq (hprepared : Prepared o tree format given paths)
    (houtput : o.output = some directory) :
    ∃ notices, runOnFiles o tree
      = { writeCodex tree directory format (codexOf o tree given paths) with notices } := by
  unfold runOnFiles
  simp only [houtput, hprepared.format, supplement_eq_ok_iff.2 hprepared.given, hprepared.paths,
    value_readInputs]
  exact ⟨_, rfl⟩

theorem mem_notices_runOnFiles {n : Notice} (hprepared : Prepared o tree format given paths)
    (houtput : o.output = some directory) (h : n ∈ (readInputs o tree paths).notices) :
    n ∈ (runOnFiles o tree).notices := by
  unfold runOnFiles
  simp only [houtput, hprepared.format, supplement_eq_ok_iff.2 hprepared.given, hprepared.paths]
  simp [h]

/--
An input without a document is skipped with a warning.
-/
theorem exists_skipped_mem_runOnFiles (hprepared : Prepared o tree format given paths)
    (houtput : o.output = some directory) (hpath : path ∈ paths)
    (h : luaDocument? o tree path = none) :
    ∃ cause, Notice.skipped path.text cause ∈ (runOnFiles o tree).notices := by
  obtain ⟨cause, hcause⟩ := exists_skipped_mem_readInput h
  refine ⟨cause, mem_notices_runOnFiles hprepared houtput ?_⟩
  simp only [readInputs, List.mem_append, List.mem_flatMap, List.mem_map]
  exact Or.inl (Or.inl ⟨_, ⟨path, hpath, rfl⟩, hcause⟩)

theorem prepared_or_runOnFiles_eq (o : Options) (tree : FileTree) :
    (∃ directory format given paths, o.output = some directory
        ∧ Prepared o tree format given paths)
      ∨ ∃ notices f, runOnFiles o tree = { tree, notices, failure := some f }
        ∧ (f = .noOutput ∨ f = .unknownFormat o.formatName ∨ supplement o tree = .error f
          ∨ (inputs tree o.files).value = .error f) := by
  cases houtput : o.output with
  | none =>
    refine Or.inr ⟨[], .noOutput, ?_, Or.inl rfl⟩
    simp only [runOnFiles, houtput]
  | some directory =>
    cases hformat : Format.ofName? o.formatName with
    | none =>
      refine Or.inr ⟨[], .unknownFormat o.formatName, ?_, Or.inr (Or.inl rfl)⟩
      simp only [runOnFiles, houtput, hformat]
    | some format =>
      cases hgiven : supplement o tree with
      | error f =>
        refine Or.inr ⟨[], f, ?_, Or.inr (Or.inr (Or.inl rfl))⟩
        simp only [runOnFiles, houtput, hformat, hgiven]
      | ok given =>
        cases hpaths : (inputs tree o.files).value with
        | error f =>
          refine Or.inr ⟨(inputs tree o.files).notices, f, ?_, Or.inr (Or.inr (Or.inr rfl))⟩
          simp only [runOnFiles, houtput, hformat, hgiven, hpaths]
        | ok paths =>
          have hsupplies := supplement_eq_ok_iff.1 hgiven
          exact Or.inl ⟨directory, format, given, paths, rfl, hformat, hsupplies, hpaths⟩

theorem exists_prepared (h : (runOnFiles o tree).failure = none) :
    ∃ directory format given paths, o.output = some directory
      ∧ Prepared o tree format given paths := by
  rcases prepared_or_runOnFiles_eq o tree with hprepared | ⟨notices, f, hrun, -⟩
  · exact hprepared
  · rw [hrun] at h
    contradiction

theorem run_of_files (hfiles : o.files ≠ []) (stdin : List UInt8) :
    run o tree stdin = runOnFiles o tree := by
  unfold run
  rw [if_neg hfiles]

theorem codexPath?_eq (hprepared : Prepared o tree format given paths)
    (houtput : o.output = some directory) : codexPath? o = some (codexPath directory format) := by
  simp [codexPath?, houtput, hprepared.format]

theorem holds_of_runOnFiles (h : (runOnFiles o tree).failure = none)
    (hprepared : Prepared o tree format given paths) :
    Holds o (runOnFiles o tree).tree ((codexOf o tree given paths).text format) := by
  obtain ⟨directory, -, -, -, houtput, -⟩ := exists_prepared h
  obtain ⟨notices, hrun⟩ := exists_runOnFiles_eq hprepared houtput
  rw [hrun] at h ⊢
  obtain ⟨made, location, -, -, hresolve⟩ := exists_of_writeCodex h
  exact ⟨codexPath directory format, codexPath?_eq hprepared houtput, location, hresolve⟩

theorem failure_runOnFiles {f : Failure} (hprepared : Prepared o tree format given paths)
    (h : (runOnFiles o tree).failure = some f) :
    f = .noOutput ∨ (∃ directory e, f = .noDirectory directory e)
      ∨ ∃ path e, f = .notWritten path e := by
  cases houtput : o.output with
  | none =>
    simp only [runOnFiles, houtput, Option.some_inj] at h
    exact Or.inl h.symm
  | some directory =>
    obtain ⟨notices, hrun⟩ := exists_runOnFiles_eq hprepared houtput
    rw [hrun] at h
    rcases failure_writeCodex h with ⟨e, he⟩ | ⟨e, he⟩
    · exact Or.inr (Or.inl ⟨directory, e, he⟩)
    · exact Or.inr (Or.inr ⟨_, e, he⟩)

theorem runOnFiles_of_hasRoom (hroom : HasRoom o tree)
    (hprepared : Prepared o tree format given paths) : (runOnFiles o tree).failure = none := by
  obtain ⟨directory, houtput, hdirectory, hfree⟩ := hroom
  obtain ⟨notices, hrun⟩ := exists_runOnFiles_eq hprepared houtput
  rw [hrun]
  apply writeCodex_of_isDirectory hdirectory
  exact hfree _ (codexPath?_eq hprepared houtput)

theorem inputs_of_read (h : tree.read path = .ok bytes) :
    (inputs tree [path.text]).value = .ok [path] := by
  obtain ⟨there, hresolve, -⟩ := read_eq_ok_iff.1 h
  have hfile : tree.isFile path = true := by simp [isFile, hresolve]
  simp [inputs, inputs.go, inputsOf, hfile, Except.map, Path.arrange_singleton]

theorem codexOf_singleton (hlua : path.isLua = true) (h : tree.read path = .ok bytes) :
    codexOf o tree given [path]
      =
    (Codex.assemble (Document.ofText o.extraction (Text.decodeLossy bytes)).value given).value := by
  have hdocument : [path].filterMap (luaDocument? o tree)
      = [(path.text, (Document.ofText o.extraction (Text.decodeLossy bytes)).value)] := by
    simp [luaDocument?, hlua, h, Except.toOption]
  unfold codexOf
  rw [hdocument, Document.unite_singleton]

theorem exists_of_runOnInput {stdin : List UInt8} (h : (runOnInput o tree stdin).failure = none) :
    ∃ format given, Format.ofName? o.formatName = some format
      ∧ supplement o tree = .ok given := by
  cases hgiven : supplement o tree with
  | error f => simp [runOnInput, hgiven] at h
  | ok given =>
    cases hformat : Format.ofName? o.formatName with
    | none => simp [runOnInput, hgiven, hformat] at h
    | some format => exact ⟨format, given, rfl, rfl⟩

theorem runOnInput_eq (hformat : Format.ofName? o.formatName = some format)
    (hgiven : supplement o tree = .ok given) (stdin : List UInt8) :
    let doc := (Document.ofText o.extraction (Text.decodeLossy stdin)).value
    (runOnInput o tree stdin).failure = none
      ∧ (runOnInput o tree stdin).stdout = (Codex.assemble doc given).value.text format := by
  simp [runOnInput, hformat, hgiven]

theorem run_of_no_files (o : Options) (tree : FileTree) (stdin : List UInt8)
    (output : Option Path) (verbose : Nat) (quiet : Bool) :
    run { o with files := [], output, verbose, quiet } tree stdin = runOnInput o tree stdin := rfl

/--
A run on files that succeeds leaves the codex of the Lua files among its inputs that can be read in
its place, and warns of each other input. No input makes it fail, only a place to which nothing can
be written does. On a single Lua file that can be read it writes what a run on the standard input
prints that is given the bytes of this file.
-/
theorem run_on_files (o : Options) (tree : FileTree) (stdin : List UInt8) (hfiles : o.files ≠ []) :
    let outcome := run o tree stdin
    (outcome.failure = none → ∃ format given paths, Prepared o tree format given paths
        ∧ Holds o outcome.tree ((codexOf o tree given paths).text format)
        ∧ ∀ path ∈ paths, luaDocument? o tree path = none →
          ∃ cause, Notice.skipped path.text cause ∈ outcome.notices)
      ∧ (∀ format given paths, Prepared o tree format given paths →
        (∀ f, outcome.failure = some f →
            f = .noOutput ∨ (∃ directory e, f = .noDirectory directory e)
              ∨ ∃ path e, f = .notWritten path e)
          ∧ (HasRoom o tree → outcome.failure = none))
      ∧ ∀ path bytes output verbose quiet, o.files = [path.text] → path.isLua = true →
        tree.read path = .ok bytes →
        let piped := run { o with files := [], output, verbose, quiet } tree bytes
        (outcome.failure = none → piped.failure = none ∧ Holds o outcome.tree piped.stdout)
          ∧ (HasRoom o tree → piped.failure = none → outcome.failure = none) := by
  intro outcome
  have hrun : outcome = runOnFiles o tree := run_of_files hfiles stdin
  rw [hrun]
  refine ⟨?_, ?_, ?_⟩
  · intro h
    obtain ⟨directory, format, given, paths, houtput, hprepared⟩ := exists_prepared h
    refine ⟨format, given, paths, hprepared, holds_of_runOnFiles h hprepared, ?_⟩
    intro path hpath hnone
    exact exists_skipped_mem_runOnFiles hprepared houtput hpath hnone
  · intro format given paths hprepared
    constructor
    · intro f h
      exact failure_runOnFiles hprepared h
    · intro hroom
      exact runOnFiles_of_hasRoom hroom hprepared
  · intro path bytes output verbose quiet hsingle hlua hread
    have hpaths : (inputs tree o.files).value = .ok [path] := by
      rw [hsingle]
      exact inputs_of_read hread
    rw [run_of_no_files]
    constructor
    · intro h
      obtain ⟨directory, format, given, paths, -, hprepared⟩ := exists_prepared h
      have hpath : paths = [path] := by
        have := hprepared.paths
        rw [hpaths] at this
        simpa [eq_comm] using this
      subst hpath
      obtain ⟨hfailure, hstdout⟩ :=
        runOnInput_eq hprepared.format (supplement_eq_ok_iff.2 hprepared.given) bytes
      rw [hstdout, ← codexOf_singleton hlua hread]
      exact ⟨hfailure, holds_of_runOnFiles h hprepared⟩
    · intro hroom h
      obtain ⟨format, given, hformat, hgiven⟩ := exists_of_runOnInput h
      exact runOnFiles_of_hasRoom hroom ⟨hformat, supplement_eq_ok_iff.1 hgiven, hpaths⟩

theorem run_on_files_around_an_unreadable_file :
    let unit : List UInt8 := "---@class Unit\n".toUTF8.toList ++ [0xFF]
    let airbase : List UInt8 := "---@class Airbase\n".toUTF8.toList
    let tree : FileTree :=
      { entries :=
          [(["a.lua"], .file unit), (["b.lua"], .file unit), (["c.lua"], .file airbase),
            (["notes.txt"], .file airbase), (["out"], .directory)]
        refusals := [(["b.lua"], .permissionDenied)] }
    let all : Options :=
      { files := ["notes.txt", "c.lua", "b.lua", "a.lua"], output := some ⟨"out"⟩ }
    let single : Options := { files := ["a.lua"], output := some ⟨"out"⟩ }
    let outcome := run all tree []
    let outcome' := run single tree []
    let paths : List Path := [⟨"a.lua"⟩, ⟨"b.lua"⟩, ⟨"c.lua"⟩, ⟨"notes.txt"⟩]
    (inputs tree all.files).value = .ok paths
      ∧ tree.read ⟨"b.lua"⟩ = .error .permissionDenied
      ∧ outcome.failure = none
      ∧ Holds all outcome.tree
        ((codexOf all tree Supplement.board [⟨"a.lua"⟩, ⟨"c.lua"⟩]).text .json)
      ∧ (∃ cause, Notice.skipped "b.lua" cause ∈ outcome.notices)
      ∧ outcome'.failure = none
      ∧ Holds single outcome'.tree (run { single with files := [] } tree unit).stdout := by
  intro unit airbase tree all single outcome outcome' paths
  have hroom : HasRoom all tree := by
    refine ⟨⟨"out"⟩, rfl, rfl, ?_⟩
    rintro path hpath
    cases hpath
    rfl
  have hpaths : (inputs tree all.files).value = .ok paths := rfl
  have hprepared : Prepared all tree .json Supplement.board paths := ⟨rfl, .base rfl, hpaths⟩
  have hall := run_on_files all tree [] (by simp [all])
  have hsingle := (run_on_files single tree [] (by simp [single])).2.2 ⟨"a.lua"⟩ unit
    single.output single.verbose single.quiet rfl rfl rfl
  have houtcome : outcome.failure = none := (hall.2.1 _ _ _ hprepared).2 hroom
  have houtcome' : outcome'.failure = none := hsingle.2 hroom rfl
  obtain ⟨format, given, paths', hprepared', hholds, hskipped⟩ := hall.1 houtcome
  obtain rfl : format = .json := Option.some.inj (hprepared'.format.symm.trans hprepared.format)
  obtain rfl : given = Supplement.board := Except.ok.inj
    ((supplement_eq_ok_iff.2 hprepared'.given).symm.trans (supplement_eq_ok_iff.2 hprepared.given))
  have hsame : paths' = paths := Except.ok.inj (hprepared'.paths.symm.trans hpaths)
  rw [hsame] at hholds hskipped
  exact ⟨hpaths, rfl, houtcome, hholds, hskipped ⟨"b.lua"⟩ (by simp [paths]) rfl, houtcome',
    (hsingle.1 houtcome').2⟩

end CommandLine
end LuaCodex
