import LuaCodex.Document

/-!
This module contains the codex, which is the finished tree of classes and globals, and the
supplement, which holds given entries that are laid over the extracted ones.
-/

namespace LuaCodex

/--
A global variable of the scripting environment. Its type is the name of a class.
-/
structure Global where
  type : String
deriving DecidableEq, Repr, Inhabited

/--
Entries that are given rather than extracted.
-/
structure Supplement where
  classes : Table ApiClass := ∅
  globals : Table Global := ∅
deriving DecidableEq, Repr, Inhabited

/--
The finished tree.
-/
structure Codex where
  classes : Table ApiClass := ∅
  globals : Table Global := ∅
deriving DecidableEq, Repr, Inhabited

namespace Supplement

/--
The names of the globals that every programming board has, each with its class.
-/
def boardGlobals : List (String × String) :=
  [("library", "Library"), ("system", "System"), ("unit", "ControlUnit"), ("player", "Player"),
    ("construct", "Construct"), ("DULibrary", "Library"), ("DUSystem", "System"),
    ("DUPlayer", "Player"), ("DUConstruct", "Construct")]

/--
The supplement that defines the globals of every programming board.
-/
def board : Supplement where
  globals := .ofList (boardGlobals.map fun (name, type) => (name, Global.mk type))

/--
Lay a supplement over another one, entry by entry.
-/
def overlay (base upper : Supplement) : Supplement where
  classes := base.classes ∪ upper.classes
  globals := base.globals ∪ upper.globals

@[simp]
theorem getElem?_classes_overlay {base upper : Supplement} {name : String} :
    (base.overlay upper).classes[name]? = upper.classes[name]?.or base.classes[name]? := by
  exact Std.ExtTreeMap.getElem?_union

@[simp]
theorem getElem?_globals_overlay {base upper : Supplement} {name : String} :
    (base.overlay upper).globals[name]? = upper.globals[name]?.or base.globals[name]? := by
  exact Std.ExtTreeMap.getElem?_union

end Supplement

/--
Lay a supplement over the classes of a document, entry by entry. All globals come from the
supplement.
-/
def Codex.assemble (document : Document) (supplement : Supplement) : Noted Codex where
  value :=
    { classes := document.classes ∪ supplement.classes
      globals := supplement.globals }
  notices := (supplement.classes.keys.filter (· ∈ document.classes)).map .overridden

@[simp]
theorem Codex.getElem?_classes_assemble {document : Document} {supplement : Supplement}
    {name : String} :
    (Codex.assemble document supplement).value.classes[name]? =
      supplement.classes[name]?.or document.classes[name]? := by
  exact Std.ExtTreeMap.getElem?_union

end LuaCodex
