import LuaCodex.Json.Numeral
import LuaCodex.Json.Quoted

/-!
This module contains JSON values in the form in which they are read and written. A text that is not
JSON is read up to its first fault, so the last leaf of a value can be a broken one.
-/

namespace LuaCodex

/--
A JSON value as far as it could be read.
-/
inductive Json where
  | null
  | bool (b : Bool)
  | number (n : Json.Numeral)
  | string (s : Json.Quoted)
  | array (items : List Json)
  /-- Keys can be repeated, and their order is kept. -/
  | object (members : List (Json.Quoted × Json))
  /-- The text cannot be read on. -/
  | broken (fault : Json.Fault)
deriving Repr, Inhabited

namespace Json

/--
The string value that stands for a text.
-/
def ofText (s : String) : Json :=
  .string (.ofText s)

/--
An object with the given texts as keys.
-/
def ofMembers (members : List (String × Json)) : Json :=
  .object (members.map fun (key, value) => (.ofText key, value))

/--
Check a string that is passed over.
-/
def Quoted.skim (s : Quoted) : Except Fault Unit :=
  s.fault.elim (.ok ()) .error

mutual

/--
Check a value that is passed over. Only its form matters.
-/
def skim : Json → Except Fault Unit
  | null | bool _ | number _ => .ok ()
  | string s => s.skim
  | array items => skimItems items
  | object members => skimMembers members
  | broken fault => .error fault.inPassing

def skimItems : List Json → Except Fault Unit
  | [] => .ok ()
  | item :: items => do
    skim item
    skimItems items

def skimMembers : List (Quoted × Json) → Except Fault Unit
  | [] => .ok ()
  | (key, value) :: members => do
    key.skim
    skim value
    skimMembers members

end

mutual

/--
Check a value that is kept. Its strings have to stand for texts and its numbers have to be in range.
It can be nested as deep as there is `room`.
-/
def keep (room : Nat) : Json → Except Fault Unit
  | null | bool _ => .ok ()
  | number n => if n.inRange then .ok () else .error .numberOutOfRange
  | string s => s.text.map fun _ => ()
  | array items =>
    match room with
    | 0 => .error .tooDeep
    | room + 1 => keepItems room items
  | object members =>
    match room with
    | 0 => .error .tooDeep
    | room + 1 => keepMembers room members
  | broken fault => .error fault

def keepItems (room : Nat) : List Json → Except Fault Unit
  | [] => .ok ()
  | item :: items => do
    keep room item
    keepItems room items

def keepMembers (room : Nat) : List (Quoted × Json) → Except Fault Unit
  | [] => .ok ()
  | (key, value) :: members => do
    let _ ← key.text
    keep room value
    keepMembers room members

end

end Json
end LuaCodex
