import LuaCodex.Json.Basic

/-!
This module contains the writing of JSON values, one item or member a line and two spaces for each
level.
-/

namespace LuaCodex
namespace Json

/--
A line break and the space in front of a line.
-/
def newline (depth : Nat) : List Char :=
  '\n' :: List.replicate (2 * depth) ' '

mutual

/--
The written form of a value that starts on a line of the given depth.
-/
def print (depth : Nat) : Json → List Char
  | null => "null".toList
  | bool true => "true".toList
  | bool false => "false".toList
  | number n => n.print
  | string q => q.print
  | array [] => ['[', ']']
  | array (item :: items) =>
    '[' :: newline (depth + 1) ++ print (depth + 1) item ++ printItems (depth + 1) items
      ++ newline depth ++ [']']
  | object [] => ['{', '}']
  | object ((key, value) :: members) =>
    '{' :: newline (depth + 1) ++ key.print ++ [':', ' '] ++ print (depth + 1) value
      ++ printMembers (depth + 1) members ++ newline depth ++ ['}']
  | broken _ => []

/--
The written form of the items behind the first one.
-/
def printItems (depth : Nat) : List Json → List Char
  | [] => []
  | item :: items => ',' :: newline depth ++ print depth item ++ printItems depth items

/--
The written form of the members behind the first one.
-/
def printMembers (depth : Nat) : List (Quoted × Json) → List Char
  | [] => []
  | (key, value) :: members =>
    ',' :: newline depth ++ key.print ++ [':', ' '] ++ print depth value
      ++ printMembers depth members

end

end Json
end LuaCodex
