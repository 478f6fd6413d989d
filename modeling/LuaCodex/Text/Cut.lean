/-!
This module contains the cutting of a text at the first occurrence of a character.
-/

namespace LuaCodex
namespace Text

/--
Cut a text at the first occurrence of `sep` and leave `sep` out.
-/
def cutAt? (sep : Char) : List Char → Option (List Char × List Char)
  | [] => none
  | c :: s =>
    if c = sep then
      some ([], s)
    else
      (cutAt? sep s).map fun (front, back) => (c :: front, back)

/--
The part of a text in front of the first space, and the part behind it if there is a space.
-/
def firstField (s : List Char) : List Char × Option (List Char) :=
  match cutAt? ' ' s with
  | some (front, back) => (front, some back)
  | none => (s, none)

/--
The lines of a text. A line break at the end is followed by an empty last line.
-/
def lines (s : List Char) : List (List Char) :=
  s.splitOn '\n'

theorem cutAt?_eq_some_iff {sep : Char} {s front back : List Char} :
    cutAt? sep s = some (front, back) ↔ s = front ++ sep :: back ∧ sep ∉ front := by
  induction s generalizing front with
  | nil => simp [cutAt?]
  | cons c s ih =>
    by_cases h : c = sep
    · subst h
      cases front <;> simp [cutAt?, eq_comm]
      grind
    · cases front with
      | nil => simp [cutAt?, h]
      | cons d front => simp [cutAt?, h, Option.map_eq_some_iff, ih]; grind

theorem cutAt?_append {sep : Char} {front : List Char} (h : sep ∉ front) (back : List Char) :
    cutAt? sep (front ++ sep :: back) = some (front, back) := by
  exact cutAt?_eq_some_iff.2 ⟨rfl, h⟩

theorem append_cons_inj {sep : Char} {front front' back back' : List Char} (h : sep ∉ front)
    (h' : sep ∉ front') (heq : front ++ sep :: back = front' ++ sep :: back') :
    front = front' ∧ back = back' := by
  have hcut := cutAt?_append h back
  rw [heq, cutAt?_append h'] at hcut
  cases hcut
  exact ⟨rfl, rfl⟩

theorem cutAt?_eq_none_iff {sep : Char} {s : List Char} : cutAt? sep s = none ↔ sep ∉ s := by
  induction s with
  | nil => simp [cutAt?]
  | cons c s ih => by_cases h : c = sep <;> simp [cutAt?, h, ih, Ne.symm]

end Text
end LuaCodex
