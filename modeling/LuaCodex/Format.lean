import LuaCodex.Codex.Json
import LuaCodex.Codex.Markdown

/-!
This module contains the formats in which a codex can be rendered.
-/

namespace LuaCodex

/--
A format for codices.
-/
inductive Format where
  | json
  | markdown
deriving DecidableEq, Repr

namespace Format

/--
The format that goes by a name.
-/
def ofName? : String → Option Format
  | "json" => some json
  | "markdown" => some markdown
  | "md" => some markdown
  | _ => none

/--
The extension of files in a format.
-/
def extension : Format → String
  | json => "json"
  | markdown => "md"

end Format

/--
The text of a codex in a format.
-/
def Codex.text (c : Codex) : Format → String
  | .json => c.toJsonText
  | .markdown => c.toMarkdown

end LuaCodex
