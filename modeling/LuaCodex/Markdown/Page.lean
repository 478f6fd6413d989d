/-!
This module contains Markdown pages as sequences of elements.
-/

namespace LuaCodex
namespace Markdown

/--
An element of a page.
-/
inductive Element where
  /-- A heading with a blank line behind it. The title has level 1. -/
  | heading (level : Nat) (title : String)
  /-- A text with a blank line behind it. -/
  | paragraph (text : String)
  /-- A line of a list or of a table. -/
  | line (text : String)
  /-- A blank line. -/
  | gap
deriving DecidableEq, Repr

/--
A page, from top to bottom.
-/
abbrev Page := List Element

/--
The text of an element.
-/
def Element.text : Element → String
  | heading level title => String.ofList (List.replicate level '#') ++ " " ++ title ++ "\n\n"
  | paragraph text => text ++ "\n\n"
  | line text => text ++ "\n"
  | gap => "\n"

/--
The text of a page.
-/
def Page.text (page : Page) : String :=
  String.join (page.map Element.text)

end Markdown
end LuaCodex
