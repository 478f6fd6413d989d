/-!
This module contains the comparison of the formal arguments of a function with the parameters that
its documentation names.
-/

namespace LuaCodex

/--
What the arguments of a function and its documented parameters lack of each other.
-/
structure Advisory where
  /-- The name of the function. -/
  function : String
  /-- The arguments without a tag of their own. -/
  undocumented : List String
  /-- The documented names that are no arguments. -/
  undeclared : List String
deriving DecidableEq, Repr, Inhabited

namespace Advisory

/--
Compare the arguments of a function with the names of its documented parameters. Both lists keep
their order and their repetitions.
-/
def compare (function : String) (args documented : List String) : Advisory where
  function := function
  undocumented := args.filter (· ∉ documented)
  undeclared := documented.filter (· ∉ args)

/--
Decide whether nothing is lacking: every argument is documented and every documented name is an
argument.
-/
def isEmpty (a : Advisory) : Bool :=
  a.undocumented.isEmpty && a.undeclared.isEmpty

theorem isEmpty_compare_iff {function : String} {args documented : List String} :
    (compare function args documented).isEmpty = true ↔
      ∀ name, name ∈ args ↔ name ∈ documented := by
  simp only [isEmpty, compare, Bool.and_eq_true, List.isEmpty_iff, List.filter_eq_nil_iff,
    decide_eq_true_eq, Decidable.not_not]
  constructor
  · intro h name
    exact ⟨h.1 name, h.2 name⟩
  · intro h
    exact ⟨fun name => (h name).1, fun name => (h name).2⟩

end Advisory
end LuaCodex
