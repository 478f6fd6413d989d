import LuaCodex.Meaning
import LuaCodex.Text.Blank
import LuaCodex.Text.Cut
import LuaCodex.Text.Keyword

/-!
This module contains the recognition of doc lines: comments behind `---` and the tags among them.
-/

namespace LuaCodex

open Text

/--
The text behind the three dashes of a doc line.
-/
def docText? (line : List Char) : Option (List Char) :=
  ['-', '-', '-'].isPrefixOf? (trimStart line)

/--
The text behind `--- @marker` without the white space in front of it. The marker has to end at white
space or at the end of the line.
-/
def tagText? (marker line : List Char) : Option (List Char) := do
  match trimStart (← docText? line) with
  | '@' :: body =>
    match ← dropKeyword? marker body with
    | [] => some []
    | c :: rest => if isBlank c then some (trimStart rest) else none
  | _ => none

/--
Recognize `---@class Name`. The name is the whole remaining text.
-/
def className? (line : List Char) : Option String := do
  return String.ofList (trim (← tagText? "class".toList line))

/--
Divide the text behind a `@param` tag at its first two spaces into name, type and description.
-/
def Param.ofText (s : List Char) : Param :=
  let (name, rest) := firstField s
  let (type, rest) := firstField (rest.getD [])
  { name := String.ofList name, type := String.ofList type,
    description := String.ofList (rest.getD []) }

/--
Recognize `---@param name type description`.
-/
def param? (line : List Char) : Option Param := do
  return Param.ofText (← tagText? "param".toList line)

/--
Divide the text behind a `@return` tag at its first space, or with `named` at its first two spaces.
There is a name only if there is a space.
-/
def Return.ofText (style : ReturnStyle) (s : List Char) : Return :=
  let (type, rest) := firstField s
  match style with
  | .named =>
    let (name, description) := firstField (rest.getD [])
    { type := String.ofList type, name := rest.map fun _ => String.ofList name,
      description := String.ofList (description.getD []) }
  | .folded => { type := String.ofList type, description := String.ofList (rest.getD []) }

/--
Recognize `---@return type name description`.
-/
def return? (style : ReturnStyle) (line : List Char) : Option Return := do
  return Return.ofText style (← tagText? "return".toList line)

/--
Recognize `---@deprecated text`, where the text can be missing.
-/
def deprecated? (line : List Char) : Option (Option String) := do
  match trimEnd (← tagText? "deprecated".toList line) with
  | [] => some none
  | text => some (some (String.ofList text))

/--
Recognize any doc line.
-/
def comment? (line : List Char) : Option String := do
  return String.ofList (trimStart (← docText? line))

end LuaCodex
