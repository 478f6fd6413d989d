/-!
This module contains the removal of a keyword from the front of a text. Keywords are ASCII and are
compared without regard to the case of ASCII letters. The text is cut after as many bytes of UTF-8
as the keyword has, so a cut that would fall inside a character has to be ruled out first.
-/

namespace LuaCodex
namespace Text

/--
The number of bytes that a text takes in UTF-8.
-/
def byteLength : List Char → Nat
  | [] => 0
  | c :: s => c.utf8Size + byteLength s

/--
Cut a text after `n` bytes. There is no such cut if the text is shorter or if the cut would fall
inside a character.
-/
def cutBytes? : Nat → List Char → Option (List Char × List Char)
  | 0, s => some ([], s)
  | _ + 1, [] => none
  | n + 1, c :: s =>
    if c.utf8Size ≤ n + 1 then
      (cutBytes? (n + 1 - c.utf8Size) s).map fun (front, back) => (c :: front, back)
    else
      none

/--
Decide whether two characters are equal up to the case of ASCII letters.
-/
def sameLetter (a b : Char) : Bool :=
  a.toLower == b.toLower

/--
Decide whether two texts are equal up to the case of ASCII letters.
-/
def sameWord : List Char → List Char → Bool
  | [], [] => true
  | a :: s, b :: t => sameLetter a b && sameWord s t
  | _, _ => false

/--
Remove `word` from the front of a text. The case of ASCII letters does not matter.
-/
def dropKeyword? (word s : List Char) : Option (List Char) := do
  let (front, back) ← cutBytes? (byteLength word) s
  if sameWord front word then some back else none

theorem cutBytes?_append {n : Nat} {s front back : List Char}
    (h : cutBytes? n s = some (front, back)) : front ++ back = s ∧ byteLength front = n := by
  fun_induction cutBytes? n s generalizing front back with
  | case1 s => simp_all [byteLength]
  | case2 => simp at h
  | case3 n c s hc ih =>
    obtain ⟨⟨front', back'⟩, hcut, heq⟩ := Option.map_eq_some_iff.1 h
    obtain ⟨rfl, rfl⟩ := Prod.mk.injEq .. ▸ heq
    obtain ⟨rfl, hlen⟩ := ih hcut
    have : byteLength (c :: front') = c.utf8Size + byteLength front' := by simp [byteLength]
    exact ⟨rfl, by omega⟩
  | case4 => simp at h

end Text
end LuaCodex
