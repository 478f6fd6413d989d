import LuaCodex.Proofs.Text.Trim
import LuaCodex.Text.Keyword

/-!
This module contains how a text starts if a keyword can be removed from it. The main statement is
that cutting the text by bytes removes exactly the characters that agree with the keyword.
-/

namespace LuaCodex
namespace Text

/--
The first letter of a text in lower case.
-/
def initial? (s : List Char) : Option Char :=
  s.head?.map Char.toLower

/--
A text is a word, up to the case of ASCII letters.
-/
def IsWord (word s : List Char) : Prop :=
  s.map Char.toLower = word.map Char.toLower

instance (word s : List Char) : Decidable (IsWord word s) :=
  inferInstanceAs (Decidable (s.map Char.toLower = word.map Char.toLower))

theorem eq_of_toLower_eq {c d : Char} (hd : d.isLower = false) (h : c.toLower = d) : c = d := by
  unfold Char.toLower at h
  split at h
  · next hupper =>
    -- An upper case letter becomes a lower case one.
    have hval : d.val = c.val + 32 := congrArg Char.val h.symm
    have hrange : 97 ≤ d.val ∧ d.val ≤ 122 := by
      rw [hval]
      grind
    have hlower : d.isLower = true :=
      Bool.and_eq_true_iff.2 ⟨decide_eq_true hrange.1, decide_eq_true hrange.2⟩
    rw [hd] at hlower
    contradiction
  · exact h

theorem toLower_cases (c : Char) :
    c.toLower = c ∨ (65 ≤ c.toNat ∧ c.toNat ≤ 90) ∧ c.toLower.toNat = c.toNat + 32 := by
  unfold Char.toLower
  split
  · next hupper =>
    have hval : 'A'.val.toNat = 65 ∧ 'Z'.val.toNat = 90 := by decide
    have hlow := UInt32.le_iff_toNat_le.1 hupper.1
    have hhigh := UInt32.le_iff_toNat_le.1 hupper.2
    rw [hval.1] at hlow
    rw [hval.2] at hhigh
    refine Or.inr ⟨⟨hlow, hhigh⟩, ?_⟩
    change (c.val + 32).toNat = c.val.toNat + 32
    rw [UInt32.toNat_add]
    change (c.val.toNat + 32) % _ = _
    omega
  · exact Or.inl rfl

theorem isBlank_toLower (c : Char) : isBlank c.toLower = isBlank c := by
  rcases toLower_cases c with h | ⟨h, hlower⟩
  · rw [h]
  · -- Neither letter is white space.
    rw [Bool.eq_iff_iff]
    simp only [isBlank, hlower, Bool.or_eq_true, Bool.and_eq_true, decide_eq_true_eq, beq_iff_eq]
    omega

theorem utf8Size_toLower (c : Char) : c.toLower.utf8Size = c.utf8Size := by
  rcases toLower_cases c with h | ⟨h, hlower⟩
  · rw [h]
  · -- Both letters are ASCII.
    have hone : ∀ d : Char, d.toNat ≤ 127 → d.utf8Size = 1 := by
      intro d hd
      exact Char.utf8Size_eq_one_iff.2 (UInt32.le_iff_toNat_le.2 hd)
    rw [hone c (by omega), hone c.toLower (by omega)]

theorem sameWord_eq_true_iff {word s : List Char} : sameWord s word = true ↔ IsWord word s := by
  unfold IsWord
  fun_induction sameWord s word with
  | case1 => simp
  | case2 a s b t ih => simp [sameLetter, ih]
  | case3 s t hnil hcons =>
    cases s with
    | nil => cases t <;> simp_all
    | cons a s =>
      cases t with
      | nil => simp
      | cons b t => exact (hcons a s b t rfl rfl).elim

section

variable {word word' gap gap' front front' s rest rest' : List Char} {c : Char}

theorem IsWord.length_eq (h : IsWord word front) : front.length = word.length := by
  simpa using congrArg List.length h

theorem byteLength_map_toLower (s : List Char) :
    byteLength (s.map Char.toLower) = byteLength s := by
  induction s with
  | nil => rfl
  | cons c s ih => rw [List.map_cons, byteLength, byteLength, utf8Size_toLower, ih]

theorem IsWord.byteLength_eq (h : IsWord word front) : byteLength front = byteLength word := by
  rw [← byteLength_map_toLower front, h, byteLength_map_toLower]

theorem cutBytes?_byteLength (front back : List Char) :
    cutBytes? (byteLength front) (front ++ back) = some (front, back) := by
  induction front with
  | nil => simp [byteLength, cutBytes?]
  | cons c front ih =>
    have hsize := c.utf8Size_pos
    obtain ⟨n, hn⟩ := Nat.exists_eq_add_of_le' (show 1 ≤ c.utf8Size + byteLength front by omega)
    have hfront : n + 1 - c.utf8Size = byteLength front := by omega
    rw [byteLength, hn, List.cons_append, cutBytes?, if_pos (by omega), hfront, ih]
    rfl

/--
A keyword is removed from a text if and only if the text starts with as many characters that agree
with it.
-/
theorem dropKeyword?_eq_some_iff :
    dropKeyword? word s = some rest ↔ ∃ front, s = front ++ rest ∧ IsWord word front := by
  constructor
  · intro h
    simp only [dropKeyword?, Option.bind_eq_bind, Option.bind_eq_some_iff] at h
    obtain ⟨⟨front, back⟩, hcut, h⟩ := h
    obtain ⟨happend, -⟩ := cutBytes?_append hcut
    split at h
    · next hword =>
      cases h
      exact ⟨front, happend.symm, sameWord_eq_true_iff.1 hword⟩
    · contradiction
  · rintro ⟨front, rfl, hword⟩
    unfold dropKeyword?
    rw [← hword.byteLength_eq, cutBytes?_byteLength]
    exact if_pos (sameWord_eq_true_iff.2 hword)

theorem IsWord.append_inj (h : IsWord word front) (h' : IsWord word front')
    (heq : front ++ rest = front' ++ rest') : front = front' ∧ rest = rest' := by
  exact List.append_inj heq (h.length_eq.trans h'.length_eq.symm)

theorem initial?_of_dropKeyword? (hword : initial? word = some c)
    (h : dropKeyword? word s = some rest) : initial? s = some c := by
  obtain ⟨front, rfl, hfront⟩ := dropKeyword?_eq_some_iff.1 h
  cases word with
  | nil => contradiction
  | cons a word =>
    cases front with
    | nil => contradiction
    | cons b front =>
      rw [← hword]
      exact congrArg some (List.cons.inj hfront).1

theorem dropKeyword?_append (h : dropKeyword? word s = some rest)
    (h' : dropKeyword? (word ++ word') s = some rest') :
    ∃ front, rest = front ++ rest' ∧ IsWord word' front := by
  obtain ⟨front, rfl, hfront⟩ := dropKeyword?_eq_some_iff.1 h
  obtain ⟨long, happend, hlong⟩ := dropKeyword?_eq_some_iff.1 h'
  -- The longer keyword is cut where the shorter one ends.
  rw [IsWord, List.map_append, List.map_eq_append_iff] at hlong
  obtain ⟨first, second, rfl, hfirst, hsecond⟩ := hlong
  rw [List.append_assoc] at happend
  exact ⟨second, (hfront.append_inj hfirst happend).2, hsecond⟩

theorem IsWord.trimStart_append (h : IsWord word front) (hne : word ≠ [])
    (hword : trimStart word = word) (rest : List Char) :
    trimStart (front ++ rest) = front ++ rest := by
  rw [trimStart_eq_self_iff] at hword ⊢
  intro c hc
  obtain ⟨a, word, rfl⟩ := List.exists_cons_of_ne_nil hne
  cases front with
  | nil => simp [IsWord] at h
  | cons b front =>
    cases hc
    rw [← isBlank_toLower, (List.cons.inj h).1, isBlank_toLower]
    exact hword a rfl

theorem IsWord.dropKeyword?_trimStart (h : IsWord word front) (hne : word ≠ [])
    (hword : trimStart word = word) (hgap : AllBlank gap) (rest : List Char) :
    dropKeyword? word (trimStart (gap ++ (front ++ rest))) = some rest := by
  rw [Text.trimStart_append hgap, h.trimStart_append hne hword]
  exact dropKeyword?_eq_some_iff.2 ⟨front, rfl, h⟩

theorem dropKeyword?_trimStart_eq_some_iff (hne : word ≠ []) (hword : trimStart word = word) :
    dropKeyword? word (trimStart s) = some rest
      ↔
    ∃ gap front, s = gap ++ (front ++ rest) ∧ AllBlank gap ∧ IsWord word front := by
  rw [dropKeyword?_eq_some_iff]
  constructor
  · rintro ⟨front, hs, hfront⟩
    obtain ⟨gap, hgap, hsplit⟩ := exists_allBlank_append s
    exact ⟨gap, front, by rw [← hs, ← hsplit], hgap, hfront⟩
  · rintro ⟨gap, front, rfl, hgap, hfront⟩
    exact dropKeyword?_eq_some_iff.1 (hfront.dropKeyword?_trimStart hne hword hgap rest)

theorem IsWord.gap_append_inj (h : IsWord word front) (h' : IsWord word front') (hne : word ≠ [])
    (hword : trimStart word = word) (hgap : AllBlank gap) (hgap' : AllBlank gap')
    (heq : gap ++ (front ++ rest) = gap' ++ (front' ++ rest')) :
    gap = gap' ∧ front = front' ∧ rest = rest' := by
  obtain ⟨rfl, hback⟩ := append_inj_of_allBlank hgap hgap' (h.trimStart_append hne hword rest)
    (h'.trimStart_append hne hword rest') heq
  exact ⟨rfl, h.append_inj h' hback⟩

end

end Text
end LuaCodex
