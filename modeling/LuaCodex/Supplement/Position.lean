import LuaCodex.Supplement.Reading

/-!
This module contains the place in a text at which it turns out not to be a supplement: the end of
the shortest beginning that is refused for the same reason. A text that breaks off is refused at its
end.
-/

namespace LuaCodex
namespace Supplement

open Json

/--
The number of characters in the shortest beginning of a text that is refused for a reason.
-/
def refusedAt (s : List Char) (reason : Refusal) : Nat :=
  if reason.category = .eof then
    s.length
  else
    ((List.range s.length).find? fun n => refuses (s.take n)).getD s.length
where
  refuses (s : List Char) : Bool :=
    match ofScan (Json.scan s) with
    | .error e => e = reason
    | .ok _ => false

/--
The line of the end of a text, counted from one, and the number of bytes on that line.
-/
def lineAndColumn (s : List Char) : Nat × Nat :=
  (s.count '\n' + 1, Text.byteLength (s.reverse.takeWhile (· ≠ '\n')))

/--
The description of a refusal with its place in the text.
-/
def refusalMessage (text : List Char) (reason : Refusal) : String :=
  let (line, column) := lineAndColumn (text.take (refusedAt text reason))
  reason.message ++ " at line " ++ toString line ++ " column " ++ toString column

end Supplement
end LuaCodex
