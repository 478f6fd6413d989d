import Std.Data.ExtTreeMap

/-!
This module contains the entries of an extracted API: classes with their methods and events, and the
documentation that belongs to these.
-/

namespace LuaCodex

/--
A finite map from names to entries, listed by name in code point order.
-/
abbrev Table (α : Type) := Std.ExtTreeMap String α

/--
A documented parameter. The type is empty if the tag names none.
-/
structure Param where
  name : String
  type : String := ""
  description : String := ""
deriving DecidableEq, Repr, Inhabited

/--
A documented return value. It can have a type without having a name.
-/
structure Return where
  type : String
  name : Option String := none
  description : String := ""
deriving DecidableEq, Repr, Inhabited

/--
The documentation of a method or of an event.
-/
structure Doc where
  deprecated : Option Bool := none
  description : String := ""
  params : List Param := []
  returns : List Return := []
deriving DecidableEq, Repr, Inhabited

/--
Decide whether a block marks what it documents as deprecated.
-/
def Doc.isDeprecated (doc : Doc) : Bool :=
  doc.deprecated.getD false

/--
A method of a class. A static method is called with a dot, any other one with a colon.
-/
structure Method where
  isStatic : Bool
  doc : Doc := {}
deriving DecidableEq, Repr, Inhabited

/--
An event of a class.
-/
structure Event where
  doc : Doc := {}
deriving DecidableEq, Repr, Inhabited

/--
A class with its methods and events by name.
-/
structure ApiClass where
  name : String
  parent : Option String := none
  methods : Table Method := ∅
  events : Table Event := ∅
deriving DecidableEq, Repr, Inhabited

theorem ApiClass.ext_getElem? {entry entry' : ApiClass} (hname : entry.name = entry'.name)
    (hparent : entry.parent = entry'.parent)
    (hmethods : ∀ name : String, entry.methods[name]? = entry'.methods[name]?)
    (hevents : ∀ name : String, entry.events[name]? = entry'.events[name]?) :
    entry = entry' := by
  have hmethods : entry.methods = entry'.methods := Std.ExtTreeMap.ext_getElem? @hmethods
  have hevents : entry.events = entry'.events := Std.ExtTreeMap.ext_getElem? @hevents
  cases entry
  cases entry'
  simp_all

end LuaCodex
