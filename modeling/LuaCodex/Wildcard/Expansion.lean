import LuaCodex.FileTree
import LuaCodex.Wildcard.Pattern

/-!
This module contains the search for the entries of a file system that match a pattern.
-/

namespace LuaCodex
namespace Wildcard

/--
Decide whether a path stands for the directory in which one already is.
-/
def isHere (p : Path) : Bool :=
  p.components = [.current]

/--
The path of an entry of a directory. An entry of the directory in which one already is goes by its
name alone.
-/
def child (p : Path) (name : String) : Path :=
  if isHere p then ⟨name⟩ else p.join name

/--
The entries of the directory to which a path leads, in the order of their names.
-/
def children (t : FileTree) (p : Path) : List Path :=
  ((t.names p).mergeSort fun a b => a ≤ b).map (child p)

/--
All that lies below a path, each directory in front of its entries. The `depth` bounds the number of
levels.
-/
def below (t : FileTree) : Nat → Path → List Path
  | 0, _ => []
  | depth + 1, p => (children t p).flatMap fun entry => entry :: below t depth entry

/--
Decide whether the name of an entry matches a pattern.
-/
def hasMatch (tokens : List Token) (p : Path) : Bool :=
  p.fileName?.any fun name => isMatch tokens name.toList

/--
The paths that match a sequence of patterns, one for each level, below a path. A pattern without
wildcards is followed without looking into the directory. A pattern for any number of directories is
followed by all that lies below. Any other one chooses among the entries of the directory, and among
`..` and `.` if it starts with a dot. What cannot be listed has no matches.
-/
def select (t : FileTree) : List (List Token) → Path → List Path
  | [], p => [p]
  | pattern :: patterns, p =>
    match literal? pattern with
    | some name =>
      let next := child p (String.ofList name)
      let found :=
        if name = ['.'] || name = ['.', '.'] then t.isDirectory p else t.leadsSomewhere next
      if found then select t patterns next else []
    | none =>
      if pattern = [.anyDepth] then
        selectBelow patterns (below t t.entries.length p)
      else if (t.list p).isOk then
        let special :=
          if pattern.head? = some (.char '.') then
            ["..", "."].filter fun name => isMatch pattern name.toList
          else
            []
        special.flatMap (fun name => select t patterns (p.join name))
          ++ ((children t p).filter (hasMatch pattern)).flatMap (select t patterns)
      else
        []
where
  /--
  Choose among the paths below a directory by the patterns behind the one for any number of
  directories.
  -/
  selectBelow : List (List Token) → List Path → List Path
    | [], paths => paths.filter t.isDirectory
    | pattern :: patterns, paths =>
      if pattern = [.anyDepth] then
        selectBelow patterns paths
      else
        (paths.filter (hasMatch pattern)).flatMap (select t patterns)

/--
The patterns for each level and the path at which they start.
-/
def levels (pattern : List Char) : Path × List (List Char) :=
  match pattern with
  | '/' :: rest => (⟨"/"⟩, segments rest)
  | rest => (⟨"."⟩, segments rest)
where
  /--
  The parts of a text between its slashes. A slash at the end has nothing behind it.
  -/
  segments (s : List Char) : List (List Char) :=
    let parts := s.splitOn '/'
    if parts.getLast? = some [] then parts.dropLast else parts

/--
The paths that match a pattern. A slash at the end asks for directories.
-/
def expand (t : FileTree) (pattern : String) : Except PatternError (List Path) := do
  let text := pattern.toList
  let _ ← tokens text
  let (start, segments) := levels text
  let patterns ← segments.mapM tokens
  if patterns = [] then
    return []
  let paths := select t patterns start
  return if text.getLast? = some '/' then paths.filter t.isDirectory else paths

end Wildcard
end LuaCodex
