import LuaCodex.FileTree
import LuaCodex.Wildcard.Pattern
import LuaCodex.Supplement.Position

/-!
This module contains the failures that a run can end with.
-/

namespace LuaCodex

/--
A reason for which no codex is made.
-/
inductive Failure where
  /-- Files are given, but no place for the codex. -/
  | noOutput
  | unknownFormat (name : String)
  | unsupportedFile (path : Path)
  | unreadableGlobals (path : Path) (error : AccessError)
  /-- The globals file is not UTF-8. -/
  | undecodableGlobals (path : Path)
  | badSupplement (path : Path) (text : List Char) (reason : Json.Refusal)
  | unlistedDirectory (path : Path) (error : AccessError)
  | badPattern (pattern : String) (error : Wildcard.PatternError)
  | noDirectory (path : Path) (error : AccessError)
  | notWritten (path : Path) (error : AccessError)
deriving DecidableEq, Repr

/--
What is said about a text that is not a supplement, whatever the reason.
-/
def Supplement.invalid : String :=
  "invalid supplement JSON"

namespace Failure

/--
The text of a failure.
-/
def message : Failure → String
  | noOutput => "--output is required when files are given"
  | unknownFormat name => "unknown format: " ++ name ++ ". Use json or markdown"
  | unsupportedFile path => "unsupported file type: " ++ path.text
  | unreadableGlobals path _ | undecodableGlobals path =>
    "failed to read globals file: " ++ path.text
  | badSupplement path .. => "failed to load " ++ path.text
  | unlistedDirectory path _ => "failed to read directory: " ++ path.text
  | badPattern pattern _ => "invalid glob pattern: " ++ pattern
  | noDirectory path _ => "failed to create output directory: " ++ path.text
  | notWritten path _ => "failed to write " ++ path.text

/--
The causes of a failure, the nearest first.
-/
def causes : Failure → List String
  | noOutput | unknownFormat _ | unsupportedFile _ => []
  | unreadableGlobals _ e | unlistedDirectory _ e | noDirectory _ e | notWritten _ e => [e.message]
  | undecodableGlobals _ => ["stream did not contain valid UTF-8"]
  | badSupplement _ text reason => [Supplement.invalid, Supplement.refusalMessage text reason]
  | badPattern _ e => [e.message]

/--
The report of a failure. Several causes are numbered.
-/
def report (f : Failure) : String :=
  "Error: " ++ f.message ++ "\n" ++
    match f.causes with
    | [] => ""
    | [cause] => "\nCaused by:\n    " ++ cause ++ "\n"
    | causes =>
      "\nCaused by:\n"
        ++ String.join (causes.mapIdx fun i cause => "    " ++ toString i ++ ": " ++ cause ++ "\n")

end Failure
end LuaCodex
