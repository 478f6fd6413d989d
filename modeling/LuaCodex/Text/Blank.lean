/-!
This module contains the white space of Unicode and the functions that strip it from the ends of a
text.
-/

namespace LuaCodex
namespace Text

/--
Decide whether a character has the Unicode property `White_Space`.
-/
def isBlank (c : Char) : Bool :=
  let n := c.toNat
  (9 ≤ n && n ≤ 13) || n == 0x20 || n == 0x85 || n == 0xA0 || n == 0x1680
    || (0x2000 ≤ n && n ≤ 0x200A) || n == 0x2028 || n == 0x2029 || n == 0x202F || n == 0x205F
    || n == 0x3000

/--
Drop the white space in front of a text.
-/
def trimStart (s : List Char) : List Char :=
  s.dropWhile isBlank

/--
Drop the white space behind a text.
-/
def trimEnd (s : List Char) : List Char :=
  (s.reverse.dropWhile isBlank).reverse

/--
Drop the white space on both sides of a text.
-/
def trim (s : List Char) : List Char :=
  trimEnd (trimStart s)

/--
Drop the white space on both sides of a string. A string without any at its ends is not taken apart.
-/
def strip (s : String) : String :=
  if s.startsWith isBlank || s.endsWith isBlank then String.ofList (trim s.toList) else s

@[simp]
theorem trimStart_nil : trimStart [] = [] := rfl

@[simp]
theorem trimEnd_nil : trimEnd [] = [] := rfl

@[simp]
theorem trim_nil : trim [] = [] := rfl

theorem trimStart_trimStart (s : List Char) : trimStart (trimStart s) = trimStart s := by
  induction s with
  | nil => rfl
  | cons c s ih =>
    by_cases h : isBlank c = true
    · simpa [trimStart, h] using ih
    · simp [trimStart, h]

theorem trimEnd_trimEnd (s : List Char) : trimEnd (trimEnd s) = trimEnd s := by
  have h := trimStart_trimStart s.reverse
  simp only [trimStart] at h
  simp [trimEnd, h]

theorem trim_eq_self {s : List Char} (hhead : s.head?.any isBlank = false)
    (hlast : s.getLast?.any isBlank = false) : trim s = s := by
  have hstart : trimStart s = s := by
    cases s with
    | nil => rfl
    | cons c s => simp_all [trimStart]
  rw [trim, hstart, trimEnd]
  rw [← List.head?_reverse] at hlast
  cases h : s.reverse with
  | nil => simp_all
  | cons c t =>
    rw [h] at hlast
    rw [List.dropWhile_cons_of_neg (by simpa using hlast), ← h, List.reverse_reverse]

theorem strip_eq (s : String) : strip s = String.ofList (trim s.toList) := by
  unfold strip
  split
  · rfl
  next h =>
    rw [String.startsWith_bool_eq_head?, String.endsWith_bool_eq_getLast?, Bool.not_eq_true,
      Bool.or_eq_false_iff] at h
    rw [trim_eq_self h.1 h.2, String.ofList_toList]

end Text
end LuaCodex
