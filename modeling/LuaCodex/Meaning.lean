import LuaCodex.Entry

/-!
This module contains what a single line of annotated Lua can say.
-/

namespace LuaCodex

/--
The head of a method declaration: its name, its formal arguments, and whether it is static.
-/
structure Signature where
  name : String
  args : List String
  isStatic : Bool
deriving DecidableEq, Repr, Inhabited

/--
How the text behind a `@return` tag is divided. With `named` it is a type, a name and a description,
with `folded` it is a type and a description.
-/
inductive ReturnStyle where
  | named
  | folded
deriving DecidableEq, Repr, Inhabited

/--
The meaning of a line that is a doc tag, a comment or a declaration.
-/
inductive Meaning where
  /-- The line `---@class Name`. -/
  | startsClass (name : String)
  /-- The line `self = Parent()`, with or without `local`. -/
  | inherits (parent : String)
  /-- The line `function self.name(args)` or `function self:name(args)`. -/
  | declaresMethod (signature : Signature)
  /-- The line `self.name = Event:new()`. -/
  | declaresEvent (name : String)
  /-- The line `---@param name type description`. -/
  | param (param : Param)
  /-- The line `---@return type name description`. -/
  | returns (value : Return)
  /-- The line `---@deprecated text`. -/
  | deprecated (text : Option String)
  /-- Any other line behind `---`. -/
  | comment (text : String)
deriving DecidableEq, Repr, Inhabited

end LuaCodex
