import LuaCodex.Proofs.CommandLine.Files
import LuaCodex.Proofs.FileTree.Directories

/-!
This module contains what a run leaves behind. The main statement is that a run that fails changes
no file and prints nothing, and that one that succeeds either prints the codex or writes it into a
single file.
-/

namespace LuaCodex

/--
A failure that ends a run. A file that is not supported is skipped instead.
-/
def Failure.EndsRun : Failure → Prop
  | unsupportedFile _ => False
  | _ => True

namespace CommandLine

open FileTree

variable {o : Options} {tree : FileTree} {format : Format} {given : Supplement}
variable {paths : List Path} {directory : Path} {codex : Codex} {f : Failure}

theorem Outcome.status_eq_one_iff {outcome : Outcome} :
    outcome.status = 1 ↔ ∃ f, outcome.failure = some f := by
  rw [← Option.isSome_iff_exists, status]
  split
  · next h => simp [h]
  · next h => simp [h]

theorem Outcome.status_eq_zero_iff {outcome : Outcome} :
    outcome.status = 0 ↔ outcome.failure = none := by
  simp [status]

theorem endsRun_of_supplement (h : supplement o tree = .error f) : f.EndsRun := by
  unfold supplement at h
  cases hglobals : o.globals with
  | none => simp [hglobals, pure, Except.pure] at h
  | some path =>
    simp only [hglobals, bind, Except.bind] at h
    cases hread : tree.read path with
    | error e =>
      simp only [hread, Except.mapError, Except.error.injEq] at h
      rw [← h]
      trivial
    | ok bytes =>
      simp only [hread, Except.mapError] at h
      split at h
      · cases h
        trivial
      · next text _ =>
        cases hjson : Supplement.ofJson (String.ofList text) with
        | error e =>
          simp only [hjson, Except.error.injEq] at h
          rw [← h]
          trivial
        | ok given => simp [hjson, pure, Except.pure] at h

theorem endsRun_of_inputsOf {arg : String} (h : inputsOf tree arg = .error f) : f.EndsRun := by
  unfold inputsOf at h
  split at h
  · contradiction
  split at h
  · split at h
    · contradiction
    · cases h
      trivial
  · split at h
    · contradiction
    · cases h
      trivial

theorem endsRun_of_inputs {args : List String} (h : (inputs tree args).value = .error f) :
    f.EndsRun := by
  have hgo : ∀ args, (inputs.go tree args).value = .error f → f.EndsRun := by
    intro args hargs
    induction args with
    | nil => contradiction
    | cons arg args ih =>
      unfold inputs.go at hargs
      split at hargs
      · next hinputs =>
        cases hargs
        exact endsRun_of_inputsOf hinputs
      · next found _ =>
        cases hrest : (inputs.go tree args).value with
        | ok rest => simp [hrest, Except.map] at hargs
        | error f' =>
          simp only [hrest, Except.map, Except.error.injEq] at hargs
          exact ih (by rw [hrest, hargs])
  apply hgo args
  cases hfound : (inputs.go tree args).value with
  | ok found => simp [inputs, hfound, Except.map] at h
  | error f' => simpa [inputs, hfound, Except.map] using h

theorem stdout_writeCodex : (writeCodex tree directory format codex).stdout = "" := by
  unfold writeCodex
  rcases tree.makeDirectories directory with ⟨made, _ | e⟩
  · simp only
    split <;> rfl
  · rfl

theorem sameFileAt_of_writeCodex_failure
    (h : (writeCodex tree directory format codex).failure = some f) (location : Location) :
    SameFileAt tree (writeCodex tree directory format codex).tree location := by
  have hdirectories := addsDirectories_makeDirectories tree directory
  rcases hmake : tree.makeDirectories directory with ⟨made, _ | e⟩
  · rw [hmake] at hdirectories
    cases hwrite : made.write (codexPath directory format) (codex.text format).toUTF8.toList with
    | ok after => simp only [writeCodex, hmake, hwrite, reduceCtorEq] at h
    | error e =>
      simp only [writeCodex, hmake, hwrite]
      exact hdirectories.sameFileAt location
  · rw [hmake] at hdirectories
    simp only [writeCodex, hmake]
    exact hdirectories.sameFileAt location

theorem exists_resolve_writeCodex
    (h : (writeCodex tree directory format codex).failure = none) :
    let after := (writeCodex tree directory format codex).tree
    ∃ location, after.resolve (codexPath directory format)
        = .ok (location, .file (codex.text format).toUTF8.toList)
      ∧ ∀ other, other ≠ location → SameFileAt tree after other := by
  intro after
  obtain ⟨made, location, hmake, hput, hresolve⟩ := exists_of_writeCodex h
  have hdirectories := addsDirectories_makeDirectories tree directory
  rw [hmake] at hdirectories
  refine ⟨location, hresolve, ?_⟩
  intro other hother content
  simp only [after, hput]
  rw [node?_put_of_ne hother]
  exact hdirectories.sameFileAt other content

theorem stdout_runOnFiles : (runOnFiles o tree).stdout = "" := by
  rcases prepared_or_runOnFiles_eq o tree with
    ⟨directory, format, given, paths, houtput, hprepared⟩ | ⟨notices, f, hrun, -⟩
  · obtain ⟨notices, hrun⟩ := exists_runOnFiles_eq hprepared houtput
    rw [hrun]
    exact stdout_writeCodex
  · rw [hrun]

theorem sameFileAt_of_runOnFiles_failure (h : (runOnFiles o tree).failure = some f) :
    (∀ location, SameFileAt tree (runOnFiles o tree).tree location) ∧ f.EndsRun := by
  rcases prepared_or_runOnFiles_eq o tree with
    ⟨directory, format, given, paths, houtput, hprepared⟩ | ⟨notices, f', hrun, hf'⟩
  · obtain ⟨notices, hrun⟩ := exists_runOnFiles_eq hprepared houtput
    rw [hrun] at h ⊢
    refine ⟨sameFileAt_of_writeCodex_failure h, ?_⟩
    rcases failure_writeCodex h with ⟨e, rfl⟩ | ⟨e, rfl⟩ <;> trivial
  · rw [hrun] at h ⊢
    cases h
    refine ⟨(AddsDirectories.refl tree).sameFileAt, ?_⟩
    rcases hf' with rfl | rfl | hgiven | hpaths
    · trivial
    · trivial
    · exact endsRun_of_supplement hgiven
    · exact endsRun_of_inputs hpaths

theorem exists_resolve_runOnFiles (h : (runOnFiles o tree).failure = none) :
    ∃ format given paths directory location, Prepared o tree format given paths
      ∧ o.output = some directory
      ∧ (runOnFiles o tree).tree.resolve (codexPath directory format)
        = .ok (location, .file ((codexOf o tree given paths).text format).toUTF8.toList)
      ∧ ∀ other, other ≠ location → SameFileAt tree (runOnFiles o tree).tree other := by
  obtain ⟨directory, format, given, paths, houtput, hprepared⟩ := exists_prepared h
  obtain ⟨notices, hrun⟩ := exists_runOnFiles_eq hprepared houtput
  rw [hrun] at h ⊢
  obtain ⟨location, hresolve, hothers⟩ := exists_resolve_writeCodex h
  exact ⟨format, given, paths, directory, location, hprepared, houtput, hresolve, hothers⟩

theorem runOnInput_effect (o : Options) (tree : FileTree) (stdin : List UInt8) :
    (runOnInput o tree stdin).tree = tree
      ∧ ∀ f, (runOnInput o tree stdin).failure = some f →
        (runOnInput o tree stdin).stdout = "" ∧ f.EndsRun := by
  unfold runOnInput
  cases hgiven : supplement o tree with
  | error f =>
    refine ⟨rfl, ?_⟩
    intro f' hf'
    cases hf'
    exact ⟨rfl, endsRun_of_supplement hgiven⟩
  | ok given =>
    cases hformat : Format.ofName? o.formatName with
    | none =>
      refine ⟨rfl, ?_⟩
      intro f hf
      cases hf
      exact ⟨rfl, trivial⟩
    | some format =>
      refine ⟨rfl, ?_⟩
      intro f hf
      contradiction

/--
A run that fails changes no file and prints nothing, and what makes it fail is never a single file
of the wrong type. A run on files that succeeds leaves the codex in its place, changes no file
anywhere else and prints nothing. A run on the standard input leaves the file system as it is.
-/
theorem run_effects (o : Options) (tree : FileTree) (stdin : List UInt8) :
    let outcome := run o tree stdin
    (outcome.status = 1 → outcome.stdout = ""
        ∧ (∀ location, SameFileAt tree outcome.tree location)
        ∧ ∃ f, outcome.failure = some f ∧ f.EndsRun)
      ∧ (outcome.status = 0 → o.files ≠ [] → outcome.stdout = ""
        ∧ ∃ format given paths directory location, Prepared o tree format given paths
          ∧ o.output = some directory
          ∧ outcome.tree.resolve (codexPath directory format)
            = .ok (location, .file ((codexOf o tree given paths).text format).toUTF8.toList)
          ∧ ∀ other, other ≠ location → SameFileAt tree outcome.tree other)
      ∧ (outcome.status = 0 → o.files = [] → outcome.tree = tree) := by
  intro outcome
  rw [Outcome.status_eq_one_iff, Outcome.status_eq_zero_iff]
  by_cases hfiles : o.files = []
  · have hrun : outcome = runOnInput o tree stdin := if_pos hfiles
    obtain ⟨htree, hfailure⟩ := runOnInput_effect o tree stdin
    rw [hrun]
    refine ⟨?_, ?_, ?_⟩
    · rintro ⟨f, hf⟩
      obtain ⟨hstdout, hends⟩ := hfailure f hf
      refine ⟨hstdout, ?_, f, hf, hends⟩
      rw [htree]
      exact (AddsDirectories.refl tree).sameFileAt
    · intro _ hne
      contradiction
    · intro _ _
      exact htree
  · have hrun : outcome = runOnFiles o tree := run_of_files hfiles stdin
    rw [hrun]
    refine ⟨?_, ?_, ?_⟩
    · rintro ⟨f, hf⟩
      obtain ⟨hsame, hends⟩ := sameFileAt_of_runOnFiles_failure hf
      exact ⟨stdout_runOnFiles, hsame, f, hf, hends⟩
    · intro h _
      exact ⟨stdout_runOnFiles, exists_resolve_runOnFiles h⟩
    · intro _ hempty
      contradiction

theorem run_effects_of_three_runs :
    let bytes : List UInt8 := "---@class Unit\n".toUTF8.toList
    let tree : FileTree := { entries := [(["Unit.lua"], .file bytes), (["out"], .directory)] }
    let stopped : Options := { files := ["Unit.lua"], output := some ⟨"new/../Unit.lua/out"⟩ }
    let written : Options := { files := ["Unit.lua"], output := some ⟨"out"⟩ }
    (run stopped tree []).status = 1
      ∧ (run stopped tree []).tree.node? ["new"] = some .directory
      ∧ (∀ location, SameFileAt tree (run stopped tree []).tree location)
      ∧ (run written tree []).status = 0
      ∧ (∃ location, ∀ other, other ≠ location → SameFileAt tree (run written tree []).tree other)
      ∧ (run {} tree bytes).status = 0
      ∧ (run {} tree bytes).tree = tree := by
  intro bytes tree stopped written
  have hstopped : (run stopped tree []).status = 1 := rfl
  have hwritten : (run written tree []).status = 0 := rfl
  have hpiped : (run {} tree bytes).status = 0 := rfl
  obtain ⟨-, hsame, -⟩ := (run_effects stopped tree []).1 hstopped
  obtain ⟨-, -, -, -, -, location, -, -, -, hothers⟩ :=
    (run_effects written tree []).2.1 hwritten (by simp [written])
  have htree := (run_effects {} tree bytes).2.2 hpiped rfl
  exact ⟨hstopped, rfl, hsame, hwritten, ⟨location, hothers⟩, hpiped, htree⟩

end CommandLine
end LuaCodex
