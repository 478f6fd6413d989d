import LuaCodex.Text.LetterCase

/-!
This module contains the anchors under which the headings of a page can be linked to.
-/

namespace LuaCodex
namespace Markdown

open Text

/--
The anchor of a heading: its lower case without the characters other than letters, numbers, spaces
and hyphens, with a hyphen for each space.
-/
def anchor (title : String) : String :=
  String.ofList (((toLower title.toList).filter kept).map hyphenated)
where
  kept (c : Char) : Bool :=
    isAlphanumeric c || c == ' ' || c == '-'
  hyphenated (c : Char) : Char :=
    if c == ' ' then '-' else c

end Markdown
end LuaCodex
