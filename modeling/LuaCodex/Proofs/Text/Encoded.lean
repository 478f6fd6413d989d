import LuaCodex.Proofs.Text.Utf8

/-!
This module contains which bytes are the encoding of a text. What the decoder knows in the middle of
a character are the bits of its first bytes, so these bytes come back if the character is encoded.
The main statement is that bytes without an invalid part are the encoding of the text to which they
are decoded, and of no other.
-/

namespace LuaCodex
namespace Text
namespace Utf8

/--
The last `count` of the bytes that encode the character with a code.
-/
def lastBytes (code : Nat) : Nat → List UInt8
  | 0 => []
  | count + 1 => UInt8.ofNat (code / 64 ^ count % 64 + 128) :: lastBytes code count

/--
What has begun stands for the bytes at the front of a character, whatever its other bits are within
the bounds for the next byte.
-/
def Pending.Begins (p : Pending) (front : List UInt8) : Prop :=
  ∀ code, code / 64 ^ (p.more + 1) = p.value →
    p.low.toNat ≤ code / 64 ^ p.more % 64 + 128 → code / 64 ^ p.more % 64 + 128 ≤ p.high.toNat →
    String.utf8EncodeChar (Char.ofNat code) = front ++ lastBytes code (p.more + 1)

variable {state : Option Pending} {p q : Pending} {b : UInt8} {bytes front : List UInt8}
variable {s : List Char} {code : Nat}

theorem toNat_ofNat_of_isValidChar (h : code.isValidChar) : (Char.ofNat code).val.toNat = code := by
  rw [Char.ofNat, dif_pos h]
  rfl

theorem utf8EncodeChar_of_two (hlow : 0x80 ≤ code) (hhigh : code < 0x800) :
    String.utf8EncodeChar (Char.ofNat code)
      =
    UInt8.ofNat (code / 64 + 192) :: lastBytes code 1 := by
  have hcode := toNat_ofNat_of_isValidChar (Or.inl (by omega : code < 0xD800))
  unfold String.utf8EncodeChar
  dsimp only
  rw [hcode, if_neg (by omega), if_pos (by omega), Nat.mod_eq_of_lt (by omega : code / 64 < 32)]
  simp [lastBytes]

theorem utf8EncodeChar_of_three (hlow : 0x800 ≤ code) (hhigh : code < 0x10000)
    (hvalid : code.isValidChar) :
    String.utf8EncodeChar (Char.ofNat code)
      =
    UInt8.ofNat (code / 4096 + 224) :: lastBytes code 2 := by
  have hcode := toNat_ofNat_of_isValidChar hvalid
  unfold String.utf8EncodeChar
  dsimp only
  rw [hcode, if_neg (by omega), if_neg (by omega), if_pos (by omega),
    Nat.mod_eq_of_lt (by omega : code / 4096 < 16)]
  simp [lastBytes]

theorem utf8EncodeChar_of_four (hlow : 0x10000 ≤ code) (hhigh : code < 0x110000) :
    String.utf8EncodeChar (Char.ofNat code)
      =
    UInt8.ofNat (code / 262144 + 240) :: lastBytes code 3 := by
  have hcode := toNat_ofNat_of_isValidChar (Or.inr ⟨by omega, hhigh⟩)
  unfold String.utf8EncodeChar
  dsimp only
  rw [hcode, if_neg (by omega), if_neg (by omega), if_neg (by omega),
    Nat.mod_eq_of_lt (by omega : code / 262144 < 8)]
  simp [lastBytes]

theorem begins_of_two {value : Nat} (hb : b.toNat = value + 192) (hlow : 2 ≤ value)
    (hhigh : value < 32) : Pending.Begins { value, more := 0 } [b] := by
  intro code hvalue _ _
  change code / 64 = value at hvalue
  rw [utf8EncodeChar_of_two (by omega) (by omega), hvalue, ← hb, UInt8.ofNat_toNat]
  rfl

theorem begins_of_three {value : Nat} {low high : UInt8} (hb : b.toNat = value + 224)
    (h : ∀ code, code / 4096 = value → low.toNat ≤ code / 64 % 64 + 128 →
      code / 64 % 64 + 128 ≤ high.toNat →
      0x800 ≤ code ∧ code < 0x10000 ∧ (code < 0xD800 ∨ 0xDFFF < code)) :
    Pending.Begins { value, more := 1, low, high } [b] := by
  intro code hvalue hlow hhigh
  rw [Nat.pow_one] at hlow hhigh
  obtain ⟨hleast, hless, hvalid⟩ := h code hvalue hlow hhigh
  rw [utf8EncodeChar_of_three hleast hless (hvalid.imp_right fun h => ⟨h, by omega⟩)]
  change UInt8.ofNat (code / 64 ^ 2 + 224) :: _ = _
  rw [hvalue, ← hb, UInt8.ofNat_toNat]
  rfl

theorem begins_of_four {value : Nat} {low high : UInt8} (hb : b.toNat = value + 240)
    (h : ∀ code, code / 262144 = value → low.toNat ≤ code / 4096 % 64 + 128 →
      code / 4096 % 64 + 128 ≤ high.toNat → 0x10000 ≤ code ∧ code < 0x110000) :
    Pending.Begins { value, more := 2, low, high } [b] := by
  intro code hvalue hlow hhigh
  obtain ⟨hleast, hless⟩ := h code hvalue hlow hhigh
  rw [utf8EncodeChar_of_four hleast hless]
  change UInt8.ofNat (code / 64 ^ 3 + 240) :: _ = _
  rw [hvalue, ← hb, UInt8.ofNat_toNat]
  rfl

theorem begins_of_lead? (h : lead? b = some p) : p.Begins [b] := by
  have hlarge : b.toNat < 256 := b.toNat_lt
  simp only [lead?, Bool.and_eq_true, decide_eq_true_eq, beq_iff_eq, UInt8.le_iff_toNat_le,
    ← UInt8.toNat_inj, UInt8.reduceToNat] at h
  split at h
  · obtain rfl := Option.some.inj h
    exact begins_of_two (by omega) (by omega) (by omega)
  split at h
  · obtain rfl := Option.some.inj h
    apply begins_of_three (by omega)
    simp only [UInt8.reduceToNat]
    omega
  split at h
  · obtain rfl := Option.some.inj h
    apply begins_of_three (by omega)
    simp only [UInt8.reduceToNat]
    omega
  split at h
  · obtain rfl := Option.some.inj h
    apply begins_of_three (by omega)
    simp only [UInt8.reduceToNat]
    omega
  split at h
  · obtain rfl := Option.some.inj h
    apply begins_of_four (by omega)
    simp only [UInt8.reduceToNat]
    omega
  split at h
  · obtain rfl := Option.some.inj h
    apply begins_of_four (by omega)
    simp only [UInt8.reduceToNat]
    omega
  split at h
  · obtain rfl := Option.some.inj h
    apply begins_of_four (by omega)
    simp only [UInt8.reduceToNat]
    omega
  · contradiction

/--
A byte within the bounds has the bits that it adds to the code.
-/
theorem Pending.IsLong.ofNat_eq (h : p.IsLong) (hlow : p.low ≤ b) (hhigh : b ≤ p.high) :
    UInt8.ofNat (b.toNat % 64 + 128) = b := by
  have hleast := h.low
  have hmost := h.high
  rw [UInt8.le_iff_toNat_le] at hlow hhigh
  have hb : b.toNat % 64 + 128 = b.toNat := by omega
  rw [hb, UInt8.ofNat_toNat]

theorem Pending.Begins.encode_of_byte (h : p.Begins front) (hlong : p.IsLong) (hlow : p.low ≤ b)
    (hhigh : b ≤ p.high) (hcode : code / 64 ^ p.more = p.value * 64 + b.toNat % 64) :
    String.utf8EncodeChar (Char.ofNat code) = front ++ b :: lastBytes code p.more := by
  have hvalue : code / 64 ^ (p.more + 1) = p.value := by
    rw [Nat.pow_succ, ← Nat.div_div_eq_div_mul, hcode]
    omega
  have hbits : code / 64 ^ p.more % 64 = b.toNat % 64 := by
    rw [hcode]
    omega
  have hbyte := hlong.ofNat_eq hlow hhigh
  have hnat : b.toNat % 64 + 128 = b.toNat := by
    rw [← toNat_ofNat_of_lt (by omega : b.toNat % 64 + 128 < 256), hbyte]
  rw [UInt8.le_iff_toNat_le] at hlow hhigh
  rw [h code hvalue (by omega) (by omega), lastBytes, hbits, hbyte]

/--
Between two bytes, the decoder stands for bytes that it has read but not given out.
-/
def StandsFor : Option Pending → List UInt8 → Prop
  | none, front => front = []
  | some p, front => p.IsLong ∧ p.Begins front

theorem exists_standsFor_start (hvalid : none ∉ (start b).1) :
    ∃ s front, (start b).1 = s.map some ∧ StandsFor (start b).2 front
      ∧ encode s ++ front = [b] := by
  unfold start at hvalid ⊢
  by_cases hb : b < 0x80
  · have hlt : b.toNat < 0x80 := UInt8.lt_iff_toNat_lt.1 hb
    have hcode : (Char.ofNat b.toNat).toNat = b.toNat :=
      toNat_ofNat_of_isValidChar (Or.inl (by omega))
    rw [if_pos hb]
    refine ⟨[Char.ofNat b.toNat], [], rfl, rfl, ?_⟩
    rw [encode_cons, encode_nil, utf8EncodeChar_of_lt (by omega), hcode, UInt8.ofNat_toNat]
    rfl
  · rw [if_neg hb] at hvalid ⊢
    cases hlead : lead? b with
    | some p => exact ⟨[], [b], rfl, ⟨isLong_of_lead? hlead, begins_of_lead? hlead⟩, rfl⟩
    | none => simp [hlead] at hvalid

theorem StandsFor.step (h : StandsFor state front) (hvalid : none ∉ (step state b).1) :
    ∃ s front', (step state b).1 = s.map some ∧ StandsFor (step state b).2 front'
      ∧ encode s ++ front' = front ++ [b] := by
  cases state with
  | none =>
    obtain rfl : front = [] := h
    exact exists_standsFor_start hvalid
  | some p =>
    obtain ⟨hlong, hbegins⟩ := h
    by_cases hb : p.low ≤ b ∧ b ≤ p.high
    · have hbounds : (decide (p.low ≤ b) && decide (b ≤ p.high)) = true := by simpa using hb
      rw [Utf8.step, if_pos hbounds]
      have hbyte := fun code => @hbegins.encode_of_byte _ b _ code hlong hb.1 hb.2
      obtain ⟨value, more, low, high⟩ := p
      cases more with
      | zero =>
        refine ⟨[Char.ofNat (value * 64 + b.toNat % 64)], [], rfl, rfl, ?_⟩
        rw [encode_cons, hbyte _ (Nat.div_one _)]
        simp [lastBytes]
      | succ more =>
        refine ⟨[], front ++ [b], rfl, ⟨?_, ?_⟩, rfl⟩
        · apply isLong_of_le
          exact hlong.le_value hb.1 hb.2
        · intro code hvalue _ _
          rw [hbyte code hvalue, List.append_assoc]
          rfl
    · have hbounds : (decide (p.low ≤ b) && decide (b ≤ p.high)) = false := by
        simpa [not_and] using hb
      simp [Utf8.step, hbounds] at hvalid

theorem encode_of_go (hstate : StandsFor state front) (h : parts.go state bytes = s.map some) :
    encode s = front ++ bytes := by
  induction bytes generalizing state front s with
  | nil =>
    cases state with
    | none =>
      obtain rfl : front = [] := hstate
      obtain rfl : s = [] := by simpa using h.symm
      rfl
    | some p => cases s <;> simp at h
  | cons b bytes ih =>
    rw [parts.go_cons] at h
    obtain ⟨t, u, rfl, ht, hu⟩ := List.append_eq_map_iff.1 h
    have hvalid : none ∉ (step state b).1 := by simp [← ht]
    obtain ⟨t', front', ht', hnext, hbytes⟩ := hstate.step hvalid
    obtain rfl : t = t' := (List.map_inj_right fun _ _ => Option.some.inj).1 (ht.trans ht')
    rw [encode_append, ih hnext hu.symm, ← List.append_assoc, hbytes, List.append_assoc]
    rfl

end Utf8

variable {bytes : List UInt8} {s : List Char}

theorem mapM_id_eq_some_iff {parts : List (Option Char)} :
    parts.mapM id = some s ↔ parts = s.map some := by
  induction parts generalizing s with
  | nil => cases s <;> simp
  | cons part parts ih =>
    cases part with
    | none => cases s <;> simp
    | some c =>
      have hcons : (some c :: parts).mapM id = (parts.mapM id).map (c :: ·) := by
        rw [List.mapM_cons]
        cases parts.mapM id <;> rfl
      rw [hcons, Option.map_eq_some_iff]
      cases s with
      | nil => simp
      | cons d s =>
        simp only [ih, List.cons.injEq, List.map_cons, Option.some.injEq]
        constructor
        · rintro ⟨_, rfl, rfl, rfl⟩
          exact ⟨rfl, rfl⟩
        · rintro ⟨rfl, rfl⟩
          exact ⟨s, rfl, rfl, rfl⟩

/--
Bytes are decoded without a loss if and only if they are the encoding of a text.
-/
theorem decode?_eq_some_iff : decode? bytes = some s ↔ bytes = encode s := by
  rw [decode?, mapM_id_eq_some_iff]
  constructor
  · intro h
    have hnone : Utf8.StandsFor none [] := rfl
    exact (Utf8.encode_of_go hnone h).symm
  · rintro rfl
    exact parts_encode s

end Text
end LuaCodex
