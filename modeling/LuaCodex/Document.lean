import LuaCodex.Entry
import LuaCodex.Notice

/-!
This module contains documents, which are what one text or several texts together say, and the way
in which they are merged. A class can be spread over several texts, so classes of one name are
united member by member.
-/

namespace LuaCodex

/--
The extracted classes by name and the advisories on their methods.
-/
structure Document where
  classes : Table ApiClass := ∅
  advisories : List Advisory := []
deriving DecidableEq, Repr, Inhabited

theorem Document.ext_getElem? {document document' : Document}
    (hclasses : ∀ name : String, document.classes[name]? = document'.classes[name]?)
    (hadvisories : document.advisories = document'.advisories) : document = document' := by
  have hclasses : document.classes = document'.classes := Std.ExtTreeMap.ext_getElem? @hclasses
  cases document
  cases document'
  simp_all

/--
Unite two entries for one class. Where both name a parent or have a member of the same name, the one
of the `later` entry counts.
-/
def ApiClass.union (earlier later : ApiClass) : ApiClass where
  name := earlier.name
  parent := later.parent.or earlier.parent
  methods := earlier.methods ∪ later.methods
  events := earlier.events ∪ later.events

@[simp]
theorem ApiClass.getElem?_methods_union {earlier later : ApiClass} {name : String} :
    (earlier.union later).methods[name]? = later.methods[name]?.or earlier.methods[name]? := by
  exact Std.ExtTreeMap.getElem?_union

@[simp]
theorem ApiClass.getElem?_events_union {earlier later : ApiClass} {name : String} :
    (earlier.union later).events[name]? = later.events[name]?.or earlier.events[name]? := by
  exact Std.ExtTreeMap.getElem?_union

namespace Document

/--
Add a class to a table. If there is an entry for it, the two are united.
-/
def addClass (classes : Table ApiClass) (name : String) (entry : ApiClass) : Table ApiClass :=
  classes.alter name fun
    | some earlier => some (earlier.union entry)
    | none => some entry

/--
Unite two documents class by class.
-/
def union (earlier later : Document) : Document where
  classes := later.classes.foldl addClass earlier.classes
  advisories := earlier.advisories ++ later.advisories

/--
Unite named documents in the given order.
-/
def unite (docs : List (String × Document)) : Noted Document where
  value := docs.foldl (fun merged (_, doc) => merged.union doc) {}
  notices := docs.map fun (source, doc) => .merging doc.classes.size source

theorem getElem?_addClass {classes : Table ApiClass} {name key : String} {entry : ApiClass} :
    (addClass classes name entry)[key]? =
      if name = key then
        some (classes[name]?.elim entry (·.union entry))
      else
        classes[key]? := by
  simp only [addClass, Std.ExtTreeMap.getElem?_alter, Std.compare_eq_iff_eq]
  by_cases h : name = key
  · cases h' : classes[name]? <;> simp [h]
  · simp [h]

end Document
end LuaCodex
