import LuaCodex.Advisory

/-!
This module contains the notices that are given while a codex is made. A notice never changes the
result. How many of them are shown depends on their level.
-/

namespace LuaCodex

/--
How much a notice matters, the most important level first.
-/
inductive Level where
  | warn
  | info
  | debug
deriving DecidableEq, Repr

/--
The name of a level.
-/
def Level.name : Level → String
  | warn => "WARN"
  | info => "INFO"
  | debug => "DEBUG"

/--
An event that is worth a line in the log.
-/
inductive Notice where
  /-- Some arguments of a function have no tag. -/
  | undocumented (function : String) (args : List String)
  /-- Some tags of a function name no argument. -/
  | undeclared (function : String) (params : List String)
  /-- A parent is named while there is no class. -/
  | strayParent (parent : String)
  /-- A class has been read. -/
  | classRead (name : String) (methods events : Nat)
  /-- The last line of a text declares something that is never filed. -/
  | dropped (name : String)
  /-- The classes of a document join those of the earlier ones. -/
  | merging (classes : Nat) (source : String)
  /-- An entry of the supplement takes the place of an extracted class. -/
  | overridden (name : String)
  /-- A file is about to be read. -/
  | processing (path : String)
  /-- A file is left out. -/
  | skipped (path cause : String)
  /-- A pattern names no file. -/
  | unmatched (pattern : String)
  /-- The number of functions for which there is an advisory. -/
  | advisories (count : Nat)
  /-- The codex is about to be written. -/
  | writing (path : String)
deriving DecidableEq, Repr

namespace Notice

/--
The level of a notice.
-/
def level : Notice → Level
  | undocumented .. | undeclared .. | skipped .. | unmatched .. => .warn
  | overridden .. | processing .. | advisories .. | writing .. => .info
  | strayParent .. | classRead .. | dropped .. | merging .. => .debug

/--
The text of a notice.
-/
def message : Notice → String
  | undocumented function args =>
    "function " ++ function ++ " missing @param tags for: " ++ ", ".intercalate args
  | undeclared function params =>
    "function " ++ function ++ " missing function arguments: " ++ ", ".intercalate params
  | strayParent parent => "parent " ++ parent ++ " outside of any class"
  | classRead name methods events =>
    "class " ++ name ++ ": " ++ toString methods ++ " method(s), " ++ toString events ++ " event(s)"
  | dropped name => "dropping uncommitted object " ++ name ++ " at end of input"
  | merging classes source => "merging " ++ toString classes ++ " class(es) from " ++ source
  | overridden name => "supplement overrides class " ++ name
  | processing path => "Processing file: " ++ path
  | skipped path cause => "skipping " ++ path ++ ": " ++ cause
  | unmatched pattern => "no files matched: " ++ pattern
  | advisories count =>
    toString count ++ " function(s) with undocumented or undeclared parameters"
  | writing path => "Writing codex file: " ++ path

end Notice

/--
The notices that an advisory gives rise to.
-/
def Advisory.notices (a : Advisory) : List Notice :=
  (if a.undocumented = [] then [] else [.undocumented a.function a.undocumented])
    ++ (if a.undeclared = [] then [] else [.undeclared a.function a.undeclared])

/--
A result and the notices given on the way to it, in their order.
-/
structure Noted (α : Type) where
  value : α
  notices : List Notice := []

end LuaCodex
