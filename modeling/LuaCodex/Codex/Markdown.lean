import LuaCodex.Codex
import LuaCodex.Markdown.Anchor
import LuaCodex.Markdown.Page

/-!
This module contains the presentation of a codex as a Markdown page: an index of the classes, a
section for each class with its methods and events, and a table of the globals.
-/

namespace LuaCodex

open Markdown

/--
The item for a parameter, such as `**x** (number): the x value`.
-/
def Param.item (p : Param) : String :=
  "**" ++ p.name ++ "**"
    ++ (if p.type = "" then "" else " (" ++ p.type ++ ")")
    ++ (if p.description = "" then "" else ": " ++ p.description)

/--
The item for a return value, such as `(boolean) **success**: done`.
-/
def Return.item (r : Return) : String :=
  "(" ++ r.type ++ ")"
    ++ (if r.name.getD "" = "" then "" else " **" ++ r.name.getD "" ++ "**")
    ++ (if r.description = "" then "" else ": " ++ r.description)

/--
A labelled list, or nothing if there are no items.
-/
def labelledList (label : String) (items : List String) : Page :=
  if items = [] then
    []
  else
    .paragraph ("**" ++ label ++ "**") :: items.map (fun item => .line ("* " ++ item)) ++ [.gap]

/--
The presentation of a documentation block.
-/
def Doc.page (doc : Doc) : Page :=
  (if doc.isDeprecated then [.paragraph "_Deprecated._"] else [])
    ++ (if doc.description = "" then [] else [.paragraph doc.description])
    ++ labelledList "Parameters" (doc.params.map Param.item)
    ++ labelledList "Returns" (doc.returns.map Return.item)

/--
A section of a class, or nothing if it has no members.
-/
def memberSection (title : String) (members : List (String × Doc)) : Page :=
  if members = [] then
    []
  else
    .heading 3 title :: members.flatMap fun (name, doc) => .heading 4 name :: doc.page

/--
The name of a method together with the class that it is called on.
-/
def Method.qualifiedName (className name : String) (m : Method) : String :=
  className ++ (if m.isStatic then "." else ":") ++ name

/--
The presentation of a class.
-/
def ApiClass.page (name : String) (entry : ApiClass) : Page :=
  .heading 2 name :: (entry.parent.map parentNote).toList
    ++ memberSection "Methods"
        (entry.methods.toList.map fun (key, m) => (m.qualifiedName name key, m.doc))
    ++ memberSection "Events" (entry.events.toList.map fun (key, e) => (key, e.doc))
where
  parentNote (parent : String) : Element :=
    .paragraph ("> Extends `" ++ parent ++ "`")

namespace Codex

/--
The item of the index that links to the heading of a class.
-/
def indexItem (name : String) : String :=
  "* [" ++ name ++ "](#" ++ anchor name ++ ")"

/--
The index of the classes, or nothing if there are none.
-/
def indexPage (c : Codex) : Page :=
  if c.classes.isEmpty then
    []
  else
    .heading 2 "Index" :: c.classes.keys.map (fun name => .line (indexItem name)) ++ [.gap]

/--
The table of the globals, or nothing if there are none.
-/
def globalsPage (c : Codex) : Page :=
  if c.globals.isEmpty then
    []
  else
    [.heading 2 "Globals", .line "| Name | Type |", .line "| --- | --- |"]
      ++ c.globals.toList.map fun (name, global) => row name global
where
  row (name : String) (global : Global) : Element :=
    .line ("| `" ++ name ++ "` | " ++ global.type ++ " |")

/--
The presentation of a codex.
-/
def page (c : Codex) : Page :=
  .heading 1 "Codex" :: c.indexPage
    ++ c.classes.toList.flatMap (fun (name, entry) => entry.page name)
    ++ c.globalsPage

/--
The text of the Markdown page of a codex.
-/
def toMarkdown (c : Codex) : String :=
  c.page.text

end Codex
end LuaCodex
