import LuaCodex.Proofs.Text.Keyword
import LuaCodex.Proofs.Text.Utf8
import LuaCodex.Text.LetterCase

/-!
This module contains how a text is cut by counting bytes. A text can be cut in front of each byte
that starts a character and at its end. The main statement is that the removal of a keyword compares
and removes bytes at such a place only, and that the result is the same if characters are compared
and counted instead.
-/

namespace LuaCodex
namespace Text

/--
Decide whether a byte continues a character.
-/
def continuesChar (b : UInt8) : Bool :=
  0x80 ≤ b && b ≤ 0xBF

/--
Bytes can be divided behind the first `n` of them: there are as many, and the next one, if there is
one, does not continue a character.
-/
def IsBoundary (bytes : List UInt8) (n : Nat) : Prop :=
  n ≤ bytes.length ∧ ∀ b ∈ bytes[n]?, continuesChar b = false

/--
The lower case of a byte. Only the letters of ASCII have one.
-/
def lowerByte (b : UInt8) : UInt8 :=
  if 65 ≤ b && b ≤ 90 then b + 32 else b

variable {s front back word rest : List Char} {c : Char} {b : UInt8} {n : Nat}

theorem length_encode (s : List Char) : (encode s).length = byteLength s := by
  induction s with
  | nil => rfl
  | cons c s ih =>
    rw [encode_cons, List.length_append, String.length_utf8EncodeChar, byteLength, ih]

theorem continuesChar_iff : continuesChar b = true ↔ 0x80 ≤ b.toNat ∧ b.toNat ≤ 0xBF := by
  simp [continuesChar, UInt8.le_iff_toNat_le]

theorem continuesChar_ofNat (n : Nat) : continuesChar (UInt8.ofNat (n % 64 + 128)) = true := by
  rw [continuesChar_iff, UInt8.toNat_ofNat']
  omega

/--
A character outside of ASCII has a first byte that starts a longer sequence, and all other bytes
continue it.
-/
theorem exists_utf8EncodeChar_of_le (h : 0x80 ≤ c.toNat) :
    ∃ first more, String.utf8EncodeChar c = first :: more ∧ 0xC0 ≤ first.toNat
      ∧ ∀ b ∈ more, continuesChar b = true := by
  have hvalid : c.toNat < 0xD800 ∨ 0xDFFF < c.toNat ∧ c.toNat < 0x110000 := c.valid
  have hencode : String.utf8EncodeChar c = _ := String.utf8EncodeChar.eq_1 c
  change _ = if c.toNat ≤ 127 then _ else _ at hencode
  rw [if_neg (by omega)] at hencode
  have hnil : ∀ b ∈ ([] : List UInt8), continuesChar b = true := by simp
  have hcons : ∀ n more, (∀ b ∈ more, continuesChar b = true) →
      ∀ b ∈ UInt8.ofNat (n % 64 + 128) :: more, continuesChar b = true := by
    intro n more hmore
    exact List.forall_mem_cons.2 ⟨continuesChar_ofNat n, hmore⟩
  split at hencode
  · refine ⟨_, _, hencode, ?_, hcons _ _ hnil⟩
    rw [toNat_ofNat_of_lt] <;> omega
  split at hencode
  · refine ⟨_, _, hencode, ?_, hcons _ _ (hcons _ _ hnil)⟩
    rw [toNat_ofNat_of_lt] <;> omega
  · refine ⟨_, _, hencode, ?_, hcons _ _ (hcons _ _ (hcons _ _ hnil))⟩
    rw [toNat_ofNat_of_lt] <;> omega

/--
The first byte of a character is the one that does not continue a character.
-/
theorem exists_utf8EncodeChar (c : Char) :
    ∃ first more, String.utf8EncodeChar c = first :: more ∧ continuesChar first = false
      ∧ ∀ b ∈ more, continuesChar b = true := by
  by_cases h : c.toNat < 0x80
  · refine ⟨_, [], utf8EncodeChar_of_lt h, ?_, by simp⟩
    rw [← Bool.not_eq_true, continuesChar_iff, toNat_ofNat_of_lt (by omega)]
    omega
  · obtain ⟨first, more, hencode, hfirst, hmore⟩ := exists_utf8EncodeChar_of_le (Nat.le_of_not_lt h)
    refine ⟨first, more, hencode, ?_, hmore⟩
    rw [← Bool.not_eq_true, continuesChar_iff]
    omega

theorem isBoundary_zero (s : List Char) : IsBoundary (encode s) 0 := by
  refine ⟨Nat.zero_le _, ?_⟩
  cases s with
  | nil => simp
  | cons c s =>
    obtain ⟨first, more, hencode, hfirst, -⟩ := exists_utf8EncodeChar c
    simpa [encode_cons, hencode] using hfirst

theorem isBoundary_append_iff {bytes bytes' : List UInt8} (h : bytes.length ≤ n) :
    IsBoundary (bytes ++ bytes') n ↔ IsBoundary bytes' (n - bytes.length) := by
  unfold IsBoundary
  rw [List.length_append, List.getElem?_append_right h]
  have hlength : n ≤ bytes.length + bytes'.length ↔ n - bytes.length ≤ bytes'.length := by omega
  rw [hlength]

theorem not_isBoundary_utf8EncodeChar (h : n + 1 < c.utf8Size) (bytes : List UInt8) :
    ¬IsBoundary (String.utf8EncodeChar c ++ bytes) (n + 1) := by
  rintro ⟨-, hnext⟩
  rw [← String.length_utf8EncodeChar] at h
  obtain ⟨first, more, hencode, -, hmore⟩ := exists_utf8EncodeChar c
  rw [hencode, List.length_cons] at h
  have hlt : n < more.length := by omega
  rw [hencode, List.cons_append, List.getElem?_cons_succ, List.getElem?_append_left hlt,
    List.getElem?_eq_getElem hlt] at hnext
  have hcontinues := hmore more[n] (List.getElem_mem hlt)
  rw [hnext more[n] rfl] at hcontinues
  contradiction

/--
A text can be cut behind `n` bytes if and only if its bytes can be divided there.
-/
theorem isSome_cutBytes?_iff : (cutBytes? n s).isSome = true ↔ IsBoundary (encode s) n := by
  fun_induction cutBytes? n s with
  | case1 s => simp [isBoundary_zero]
  | case2 n => simp [IsBoundary]
  | case3 n c s hsize ih =>
    rw [Option.isSome_map, ih, encode_cons,
      isBoundary_append_iff (by rwa [String.length_utf8EncodeChar]), String.length_utf8EncodeChar]
  | case4 n c s hsize =>
    have hnot := not_isBoundary_utf8EncodeChar (Nat.lt_of_not_le hsize) (encode s)
    simpa [encode_cons] using hnot

/--
A text is cut behind `n` bytes if and only if its bytes can be divided there, and then the parts of
the text are those that the parts of the bytes encode.
-/
theorem cutBytes?_eq_some_iff :
    cutBytes? n s = some (front, back)
      ↔
    IsBoundary (encode s) n ∧ encode front = (encode s).take n
      ∧ encode back = (encode s).drop n := by
  have hparts : ∀ front back, cutBytes? n s = some (front, back) →
      encode front = (encode s).take n ∧ encode back = (encode s).drop n := by
    intro front back hcut
    obtain ⟨rfl, hlength⟩ := cutBytes?_append hcut
    rw [← length_encode] at hlength
    rw [encode_append, ← hlength]
    exact ⟨List.take_left.symm, List.drop_left.symm⟩
  rw [← isSome_cutBytes?_iff]
  constructor
  · intro hcut
    rw [hcut]
    exact ⟨rfl, hparts front back hcut⟩
  · rintro ⟨hsome, hfront, hback⟩
    obtain ⟨⟨front', back'⟩, hcut⟩ := Option.isSome_iff_exists.1 hsome
    obtain ⟨hfront', hback'⟩ := hparts front' back' hcut
    obtain rfl : front = front' := encode_injective (hfront.trans hfront'.symm)
    obtain rfl : back = back' := encode_injective (hback.trans hback'.symm)
    exact hcut

theorem lowerByte_of_lt_or_lt (h : b.toNat < 65 ∨ 90 < b.toNat) : lowerByte b = b := by
  unfold lowerByte
  rw [if_neg]
  simp only [Bool.and_eq_true, decide_eq_true_eq, UInt8.le_iff_toNat_le, UInt8.reduceToNat]
  omega

theorem utf8EncodeChar_toLower (c : Char) :
    String.utf8EncodeChar c.toLower = (String.utf8EncodeChar c).map lowerByte := by
  by_cases hc : c.toNat < 0x80
  · have hascii : ∀ n < 0x80, String.utf8EncodeChar (Char.ofNat n).toLower
        = (String.utf8EncodeChar (Char.ofNat n)).map lowerByte := by
      decide
    rw [← Char.ofNat_toNat c]
    exact hascii c.toNat hc
  · -- Neither the character nor any of its bytes has a lower case.
    have hlower : c.toLower = c := by
      rcases toLower_cases c with h | ⟨h, -⟩
      · exact h
      · omega
    have hle : 0x80 ≤ c.toNat := Nat.le_of_not_lt hc
    obtain ⟨first, more, hencode, hfirst, hmore⟩ := exists_utf8EncodeChar_of_le hle
    have hall : ∀ b ∈ first :: more, lowerByte b = b := by
      intro b hb
      apply lowerByte_of_lt_or_lt
      rcases List.mem_cons.1 hb with rfl | hb
      · omega
      · have := continuesChar_iff.1 (hmore b hb)
        omega
    rw [hlower, hencode, List.map_congr_left hall, List.map_id']

theorem encode_map_toLower (s : List Char) :
    encode (s.map Char.toLower) = (encode s).map lowerByte := by
  induction s with
  | nil => rfl
  | cons c s ih =>
    rw [List.map_cons, encode_cons, utf8EncodeChar_toLower, ih, encode_cons, List.map_append]

/--
A text is a word up to the case of ASCII letters if and only if their bytes are equal up to it.
-/
theorem isWord_iff_encode :
    IsWord word front ↔ (encode front).map lowerByte = (encode word).map lowerByte := by
  rw [← encode_map_toLower, ← encode_map_toLower, encode_injective.eq_iff]
  rfl

theorem dropKeyword?_eq_some_iff_encode :
    dropKeyword? word s = some rest
      ↔
    IsBoundary (encode s) (encode word).length
      ∧ ((encode s).take (encode word).length).map lowerByte = (encode word).map lowerByte
      ∧ encode rest = (encode s).drop (encode word).length := by
  rw [length_encode, dropKeyword?_eq_some_iff]
  constructor
  · rintro ⟨front, rfl, hword⟩
    have hcut := cutBytes?_byteLength front rest
    rw [hword.byteLength_eq] at hcut
    obtain ⟨hboundary, hfront, hrest⟩ := cutBytes?_eq_some_iff.1 hcut
    rw [← hfront]
    exact ⟨hboundary, isWord_iff_encode.1 hword, hrest⟩
  · rintro ⟨hboundary, hword, hrest⟩
    obtain ⟨⟨front, back⟩, hcut⟩ := Option.isSome_iff_exists.1 (isSome_cutBytes?_iff.2 hboundary)
    obtain ⟨-, hfront, hback⟩ := cutBytes?_eq_some_iff.1 hcut
    obtain rfl : rest = back := encode_injective (hrest.trans hback.symm)
    rw [← hfront] at hword
    exact ⟨front, (cutBytes?_append hcut).1.symm, isWord_iff_encode.2 hword⟩

theorem lt_of_toLower_lt (h : c.toLower.toNat < 0x80) : c.toNat < 0x80 := by
  rcases toLower_cases c with heq | ⟨hupper, -⟩
  · rwa [heq] at h
  · omega

theorem toLower_lt_of_lt (h : c.toNat < 0x80) : c.toLower.toNat < 0x80 := by
  rcases toLower_cases c with heq | ⟨hupper, heq⟩
  · rwa [heq]
  · omega

theorem IsWord.lt_of_mem (h : IsWord word front) (hword : ∀ c ∈ word, c.toNat < 0x80) :
    ∀ c ∈ front, c.toNat < 0x80 := by
  intro c hc
  have hmem : c.toLower ∈ word.map Char.toLower := h ▸ List.mem_map_of_mem hc
  obtain ⟨d, hd, hlower⟩ := List.mem_map.1 hmem
  apply lt_of_toLower_lt
  rw [← hlower]
  exact toLower_lt_of_lt (hword d hd)

theorem dropKeyword?_eq_some_iff_take (hword : ∀ c ∈ word, c.toNat < 0x80) :
    dropKeyword? word s = some rest
      ↔
    word.length ≤ s.length ∧ (∀ c ∈ s.take word.length, c.toNat < 0x80)
      ∧ (s.take word.length).map Char.toLower = word.map Char.toLower
      ∧ rest = s.drop word.length := by
  rw [dropKeyword?_eq_some_iff]
  constructor
  · rintro ⟨front, rfl, h⟩
    rw [← h.length_eq, List.take_left, List.drop_left, List.length_append]
    exact ⟨Nat.le_add_right _ _, h.lt_of_mem hword, h, rfl⟩
  · rintro ⟨-, -, h, rfl⟩
    exact ⟨s.take word.length, (List.take_append_drop _ s).symm, h⟩

/--
A keyword of ASCII is removed by its bytes if and only if it is removed by its characters. The
removal compares as many bytes as the keyword has, up to the case of ASCII letters, and this is only
done at a place where the text can be divided: what is cut off and what is left are texts. It
succeeds if and only if the text starts with as many characters of ASCII that agree with the keyword
up to their case. So no other character takes the place of a letter, whatever its lower case is.
-/
theorem dropKeyword?_of_ascii (hword : ∀ c ∈ word, c.toNat < 0x80) (s : List Char) :
    (∀ front back, cutBytes? (encode word).length s = some (front, back)
        ↔
      IsBoundary (encode s) (encode word).length
        ∧ encode front = (encode s).take (encode word).length
        ∧ encode back = (encode s).drop (encode word).length)
      ∧ (∀ rest, dropKeyword? word s = some rest
        ↔
      IsBoundary (encode s) (encode word).length
        ∧ ((encode s).take (encode word).length).map lowerByte = (encode word).map lowerByte
        ∧ encode rest = (encode s).drop (encode word).length)
      ∧ (∀ rest, dropKeyword? word s = some rest
        ↔
      word.length ≤ s.length ∧ (∀ c ∈ s.take word.length, c.toNat < 0x80)
        ∧ (s.take word.length).map Char.toLower = word.map Char.toLower
        ∧ rest = s.drop word.length)
      ∧ ∀ c ∈ s.take word.length, 0x80 ≤ c.toNat → dropKeyword? word s = none := by
  refine ⟨?_, ?_, ?_, ?_⟩
  · intro front back
    exact cutBytes?_eq_some_iff
  · intro rest
    exact dropKeyword?_eq_some_iff_encode
  · intro rest
    exact dropKeyword?_eq_some_iff_take hword
  · intro c hc hle
    rw [Option.eq_none_iff_forall_ne_some]
    intro rest hrest
    have hlt := ((dropKeyword?_eq_some_iff_take hword).1 hrest).2.1 c hc
    omega

theorem dropKeyword?_of_ascii_behind_a_kelvin_sign :
    let word := "key".toList
    let s := "\u212Aey".toList
    (∀ c ∈ word, c.toNat < 0x80) ∧ toLower s = word ∧ (encode word).length = 3
      ∧ cutBytes? 3 s = some (['\u212A'], "ey".toList) ∧ IsBoundary (encode s) 3
      ∧ '\u212A' ∈ s.take word.length ∧ dropKeyword? word s = none
      ∧ dropKeyword? word "KeY é".toList = some " é".toList
      ∧ ¬IsBoundary (encode "kéy".toList) 2 := by
  intro word s
  have hascii : ∀ t : List Char, t.all (·.toNat < 0x80) = true → ∀ c ∈ t, c.toNat < 0x80 := by
    intro t ht c hc
    exact of_decide_eq_true (List.all_eq_true.1 ht c hc)
  have hword : ∀ c ∈ word, c.toNat < 0x80 := hascii word (by decide)
  have hcut : cutBytes? 3 s = some (['\u212A'], "ey".toList) := by decide
  have hmem : '\u212A' ∈ s.take word.length := by decide
  have h := dropKeyword?_of_ascii hword s
  have hother := dropKeyword?_of_ascii hword "KeY é".toList
  refine ⟨hword, by decide, by decide, hcut, ((h.1 _ _).1 hcut).1, hmem, ?_, ?_, ?_⟩
  · exact h.2.2.2 '\u212A' hmem (by decide)
  · exact (hother.2.2.1 " é".toList).2 ⟨by decide, hascii _ (by decide), by decide, rfl⟩
  · rw [← isSome_cutBytes?_iff]
    decide

end Text
end LuaCodex
