import LuaCodex.Codex
import LuaCodex.Json.Print

/-!
This module contains the writing of a codex as JSON.
-/

namespace LuaCodex

open Json

/--
A table as an object.
-/
def Table.toJson {α : Type} (encode : α → Json) (table : Table α) : Json :=
  .ofMembers (table.toList.map fun (name, entry) => (name, encode entry))

/--
A member that is left out if it has no value.
-/
def optionalMember {α : Type} (name : String) (encode : α → Json) (value : Option α) :
    List (String × Json) :=
  (value.map fun v => (name, encode v)).toList

/--
A parameter as an object.
-/
def Param.toJson (p : Param) : Json :=
  .ofMembers [("name", .ofText p.name), ("type", .ofText p.type),
    ("description", .ofText p.description)]

/--
A return value as an object.
-/
def Return.toJson (r : Return) : Json :=
  .ofMembers <| ("type", .ofText r.type) :: optionalMember "name" .ofText r.name
    ++ [("description", .ofText r.description)]

/--
The members that hold a documentation block.
-/
def Doc.toMembers (doc : Doc) : List (String × Json) :=
  optionalMember "deprecated" .bool doc.deprecated
    ++ [("description", .ofText doc.description), ("params", .array (doc.params.map Param.toJson)),
      ("returns", .array (doc.returns.map Return.toJson))]

/--
A method as an object.
-/
def Method.toJson (m : Method) : Json :=
  .ofMembers (("isMethodStatic", .bool m.isStatic) :: m.doc.toMembers)

/--
An event as an object.
-/
def Event.toJson (e : Event) : Json :=
  .ofMembers e.doc.toMembers

/--
A class as an object. It does not hold its name, which is the key that it stands under.
-/
def ApiClass.toJson (c : ApiClass) : Json :=
  .ofMembers <| optionalMember "parent" .ofText c.parent
    ++ [("methods", Table.toJson Method.toJson c.methods),
      ("events", Table.toJson Event.toJson c.events)]

/--
A global as an object.
-/
def Global.toJson (g : Global) : Json :=
  .ofMembers [("type", .ofText g.type)]

namespace Codex

/--
A codex as an object.
-/
def toJson (c : Codex) : Json :=
  .ofMembers [("classes", Table.toJson ApiClass.toJson c.classes),
    ("globals", Table.toJson Global.toJson c.globals)]

/--
The text of a codex in JSON. It ends with a line break.
-/
def toJsonText (c : Codex) : String :=
  String.ofList (c.toJson.print 0 ++ ['\n'])

end Codex
end LuaCodex
