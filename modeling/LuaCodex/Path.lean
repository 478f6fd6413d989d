import Std.Data.ExtTreeMap
import LuaCodex.Text.Cut
import LuaCodex.Text.Keyword

/-!
This module contains paths of files. A path keeps the text it was given as, but two paths count as
equal if they have the same components.
-/

namespace LuaCodex

/--
A step of a path.
-/
inductive Component where
  /-- The root of the file system. -/
  | root
  /-- The directory in which one already is. -/
  | current
  /-- The directory above. -/
  | above
  /-- An entry of a directory. -/
  | entry (name : String)
deriving DecidableEq, Repr

namespace Component

/--
The rank of the kind of a component.
-/
def rank : Component → Nat
  | root => 0
  | current => 1
  | above => 2
  | entry _ => 3

/--
The text of a component.
-/
def text : Component → String
  | root => "/"
  | current => "."
  | above => ".."
  | entry name => name

/-- Components are ordered by kind, and entries by name. -/
instance : Ord Component :=
  ⟨compareLex (compareOn rank) (compareOn text)⟩

instance : Std.TransOrd Component :=
  inferInstanceAs (Std.TransCmp (compareLex (compareOn rank) (compareOn text)))

instance : Std.LawfulEqOrd Component where
  eq_of_compare {a b} h := by
    obtain ⟨h₁, h₂⟩ := compareLex_eq_eq.1 h
    have hrank : a.rank = b.rank := Std.LawfulEqOrd.eq_of_compare h₁
    have htext : a.text = b.text := Std.LawfulEqOrd.eq_of_compare h₂
    cases a <;> cases b <;> simp_all [rank, text]

end Component

/--
A path as it was given.
-/
structure Path where
  text : String
deriving DecidableEq, Repr, Inhabited

namespace Path

/--
Decide whether a path starts at the root of the file system.
-/
def isAbsolute (p : Path) : Bool :=
  p.text.toList.head? == some '/'

/--
The parts of a path between its slashes.
-/
def segments (p : Path) : List (List Char) :=
  p.text.toList.splitOn '/'

/--
The components of a path. Empty segments do not count, and `.` counts only in front of a relative
path.
-/
def components (p : Path) : List Component :=
  if p.isAbsolute then
    .root :: p.segments.filterMap component?
  else
    (if p.segments.head? = some ['.'] then [.current] else []) ++ p.segments.filterMap component?
where
  /--
  The component that a segment stands for wherever it occurs.
  -/
  component? : List Char → Option Component
    | [] => none
    | ['.'] => none
    | ['.', '.'] => some .above
    | name => some (.entry (String.ofList name))

/--
The path that some components make up.
-/
def ofComponents : List Component → Path
  | .root :: components => ⟨"/" ++ "/".intercalate (components.map (·.text))⟩
  | components => ⟨"/".intercalate (components.map (·.text))⟩

/--
The path without its last component. The root and the empty path have none.
-/
def parent? (p : Path) : Option Path :=
  match p.components.getLast? with
  | none | some .root => none
  | some _ => some (ofComponents p.components.dropLast)

/--
The name of the file that a path leads to.
-/
def fileName? (p : Path) : Option String :=
  match p.components.getLast? with
  | some (.entry name) => some name
  | _ => none

/--
The part of a file name behind its last dot. A dot in front of the name does not count.
-/
def extension? (p : Path) : Option String := do
  let name ← p.fileName?
  let (behind, before) ← Text.cutAt? '.' name.toList.reverse
  if before = [] then none else some (String.ofList behind.reverse)

/--
Decide whether a path leads to a Lua file by the look of its name.
-/
def isLua (p : Path) : Bool :=
  p.extension?.any fun ext => Text.sameWord ext.toList "lua".toList

/--
Append a name to a path. An absolute name takes the place of the path.
-/
def join (base : Path) (name : String) : Path :=
  if name.toList.head? = some '/' then
    ⟨name⟩
  else if base.text.toList.getLast?.all (· == '/') then
    ⟨base.text ++ name⟩
  else
    ⟨base.text ++ "/" ++ name⟩

/--
Put paths into the order of their components. Of several equal paths the first one given is kept.
-/
def arrange (paths : List Path) : List Path :=
  (paths.foldl (fun arranged p => arranged.insertIfNew p.components p)
    (∅ : Std.ExtTreeMap (List Component) Path)).toList.map (·.2)

end Path
end LuaCodex
