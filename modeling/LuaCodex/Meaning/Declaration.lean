import LuaCodex.Meaning
import LuaCodex.Text.Blank
import LuaCodex.Text.Cut
import LuaCodex.Text.Keyword

/-!
This module contains the recognition of the Lua lines that declare something: a parent class, a
method or an event.
-/

namespace LuaCodex

open Text

/--
Capture a text in trimmed form, provided that something is left of it.
-/
def trimmedName? (s : List Char) : Option String :=
  if trim s = [] then none else some (String.ofList (trim s))

/--
Remove a keyword that has white space behind it, together with this white space.
-/
def dropSeparateKeyword? (word s : List Char) : Option (List Char) := do
  let rest ← dropKeyword? word s
  match rest with
  | [] => none
  | c :: _ => if isBlank c then some (trimStart rest) else none

/--
The names in a list of formal arguments, without the blank ones.
-/
def argumentNames (s : List Char) : List String :=
  (s.splitOn ',').filterMap trimmedName?

/--
Recognize `self = Parent(…)`, which may have `local` in front, and capture `Parent`. The sign must
not be the first half of a comparison and the call has to be closed on the same line.
-/
def parent? (line : List Char) : Option String :=
  let line := trimStart line
  if ['-', '-'].isPrefixOf line then
    none
  else do
    let rest ← dropKeyword? "self".toList ((dropSeparateKeyword? "local".toList line).getD line)
    match trimStart rest with
    | '=' :: '=' :: _ => none
    | '=' :: rest =>
      let (expr, call) ← cutAt? '(' rest
      if ')' ∈ call then trimmedName? expr else none
    | _ => none

/--
Recognize `function self.name(args)` and `function self:name(args)`. The former is static.
-/
def signature? (line : List Char) : Option Signature := do
  let rest ← dropKeyword? "function".toList (trimStart line)
  match ← dropKeyword? "self".toList (trimStart rest) with
  | '.' :: rest => head? true rest
  | ':' :: rest => head? false rest
  | _ => none
where
  /--
  Recognize `name(args)`.
  -/
  head? (isStatic : Bool) (rest : List Char) : Option Signature := do
    let (name, rest) ← cutAt? '(' rest
    let (args, _) ← cutAt? ')' rest
    let name ← trimmedName? name
    return { name, args := argumentNames args, isStatic }

/--
Recognize `self.name = Event:new` and capture `name`.
-/
def event? (line : List Char) : Option String := do
  let rest ← dropKeyword? "self.".toList (trimStart line)
  let (name, value) ← cutAt? '=' rest
  let _ ← dropKeyword? "Event:new".toList (trimStart value)
  trimmedName? name

end LuaCodex
