import Mathlib.Algebra.Group.Nat.Defs
import LuaCodex.Proofs.Text.Lines
import LuaCodex.Text.Utf8

/-!
This module contains the theory of decoding. A byte of ASCII ends whatever has begun and stands for
itself, and no other byte leads to a character of ASCII. So a line break is decoded where its byte
is, and it does not matter whether bytes are divided into lines before they are decoded or after. A
text that has been encoded is decoded to itself.
-/

namespace LuaCodex
namespace Text

/--
The bytes of a text in UTF-8.
-/
def encode (s : List Char) : List UInt8 :=
  s.flatMap String.utf8EncodeChar

@[simp]
theorem encode_nil : encode [] = [] := rfl

theorem encode_cons (c : Char) (s : List Char) :
    encode (c :: s) = String.utf8EncodeChar c ++ encode s := rfl

theorem encode_append (s t : List Char) : encode (s ++ t) = encode s ++ encode t := by
  apply List.flatMap_append

theorem toNat_ofNat_of_lt {n : Nat} (h : n < 256) : (UInt8.ofNat n).toNat = n :=
  UInt8.toNat_ofNat_of_lt' h

theorem utf8EncodeChar_of_lt {c : Char} (h : c.toNat < 0x80) :
    String.utf8EncodeChar c = [UInt8.ofNat c.toNat] := by
  unfold String.utf8EncodeChar
  exact if_pos (Nat.le_of_lt_succ h)

namespace Utf8

/--
What has begun can only become a character of several bytes, and only bytes that continue one can
come next.
-/
structure Pending.IsLong (p : Pending) : Prop where
  low : 0x80 ≤ p.low.toNat
  high : p.high.toNat ≤ 0xBF
  value : 0x80 ≤ (p.value * 64 + p.low.toNat % 64) * 64 ^ p.more

variable {state : Option Pending} {p q : Pending} {b : UInt8} {bytes : List UInt8} {c : Char}

theorem isLong_of_le {value more : Nat} (h : 0x80 ≤ value * 64 ^ (more + 1)) :
    Pending.IsLong { value, more } := by
  refine ⟨Nat.le_refl _, Nat.le_refl _, ?_⟩
  rw [Nat.pow_succ', ← Nat.mul_assoc] at h
  simpa using h

theorem isLong_of_lead? (h : lead? b = some p) : p.IsLong := by
  simp only [lead?, Bool.and_eq_true, decide_eq_true_eq, beq_iff_eq, UInt8.le_iff_toNat_le,
    UInt8.reduceToNat] at h
  split at h
  · obtain rfl := Option.some.inj h
    exact isLong_of_le (by omega)
  split at h
  · obtain rfl := Option.some.inj h
    exact ⟨by decide, by decide, by decide⟩
  split at h
  · obtain rfl := Option.some.inj h
    exact ⟨by decide, by decide, by decide⟩
  split at h
  · obtain rfl := Option.some.inj h
    exact isLong_of_le (by omega)
  split at h
  · obtain rfl := Option.some.inj h
    exact ⟨by decide, by decide, by decide⟩
  split at h
  · obtain rfl := Option.some.inj h
    exact ⟨by decide, by decide, by decide⟩
  split at h
  · obtain rfl := Option.some.inj h
    exact isLong_of_le (by omega)
  · contradiction

theorem isLong_of_mem_start (h : p ∈ (start b).2) : p.IsLong := by
  unfold start at h
  split at h
  · contradiction
  · split at h
    · next pending hlead =>
      obtain rfl := Option.mem_some.1 h
      exact isLong_of_lead? hlead
    · contradiction

/--
The bits of a character have become too many for ASCII when its last byte comes.
-/
theorem Pending.IsLong.le_value (h : p.IsLong) (hlow : p.low ≤ b) (hhigh : b ≤ p.high) :
    0x80 ≤ (p.value * 64 + b.toNat % 64) * 64 ^ p.more := by
  have hvalue := h.value
  have hlow' := h.low
  have hhigh' := h.high
  rw [UInt8.le_iff_toNat_le] at hlow hhigh
  have hle : p.value * 64 + p.low.toNat % 64 ≤ p.value * 64 + b.toNat % 64 := by omega
  exact Nat.le_trans hvalue (Nat.mul_le_mul_right _ hle)

theorem isLong_of_mem_step (hstate : ∀ p ∈ state, p.IsLong) (h : q ∈ (step state b).2) :
    q.IsLong := by
  cases state with
  | none => exact isLong_of_mem_start h
  | some p =>
    simp only [step, Bool.and_eq_true, decide_eq_true_eq] at h
    split at h
    · next hb =>
      have hvalue := (hstate p rfl).le_value hb.1 hb.2
      split at h
      · contradiction
      · next more hmore =>
        obtain rfl := Option.mem_some.1 h
        apply isLong_of_le
        rwa [hmore] at hvalue
    · exact isLong_of_mem_start h

theorem ofNat_of_mem_start (h : some c ∈ (start b).1) : c = Char.ofNat b.toNat := by
  unfold start at h
  split at h
  · simpa using h
  · split at h
    · simp at h
    · simp at h

theorem eq_of_ofNat_eq_newline {n : Nat} (h : Char.ofNat n = '\n') : n = 10 := by
  by_cases hn : n.isValidChar
  · rw [Char.ofNat, dif_pos hn] at h
    exact congrArg Char.toNat h
  · rw [Char.ofNat, dif_neg hn] at h
    contradiction

theorem eq_of_newline_mem_step (hstate : ∀ p ∈ state, p.IsLong)
    (h : some '\n' ∈ (step state b).1) : b = 10 := by
  have hstart : some '\n' ∈ (start b).1 → b = 10 := by
    intro h
    exact UInt8.toNat_inj.1 (eq_of_ofNat_eq_newline (ofNat_of_mem_start h).symm)
  cases state with
  | none => exact hstart h
  | some p =>
    simp only [step, Bool.and_eq_true, decide_eq_true_eq] at h
    split at h
    · next hb =>
      have hvalue := (hstate p rfl).le_value hb.1 hb.2
      split at h
      · next hmore =>
        simp only [List.mem_singleton, Option.some.injEq] at h
        have := eq_of_ofNat_eq_newline h.symm
        rw [hmore, this] at hvalue
        contradiction
      · simp at h
    · simpa using hstart (by simpa using h)

theorem step_of_lt (hstate : ∀ p ∈ state, p.IsLong) (hb : b < 0x80) :
    step state b
      =
    ((if state.isSome then [none] else []) ++ [some (Char.ofNat b.toNat)], none) := by
  have hlow : ∀ p ∈ state, 0x80 ≤ p.low := by
    intro p hp
    exact UInt8.le_iff_toNat_le.2 (hstate p hp).low
  apply Prod.ext _ (step_snd_of_lt hb state hlow)
  cases state with
  | none => simp [step, start_of_lt hb]
  | some p =>
    have hp : ¬p.low ≤ b := fun hle => UInt8.not_lt.2 (hlow p rfl) (UInt8.lt_of_le_of_lt hle hb)
    simp [step, hp, start_of_lt hb]

theorem go_append_of_lt (hstate : ∀ p ∈ state, p.IsLong) (hb : b < 0x80)
    (front back : List UInt8) :
    parts.go state (front ++ b :: back)
      =
    parts.go state front ++ some (Char.ofNat b.toNat) :: parts back := by
  induction front generalizing state with
  | nil =>
    rw [List.nil_append, parts.go_cons, step_of_lt hstate hb, parts.go_nil, List.append_assoc]
    rfl
  | cons d front ih =>
    have hnext : ∀ q ∈ (step state d).2, q.IsLong := fun q hq => isLong_of_mem_step hstate hq
    rw [List.cons_append, parts.go_cons, ih hnext, parts.go_cons, List.append_assoc]

theorem newline_notMem_go (hstate : ∀ p ∈ state, p.IsLong) (h : 10 ∉ bytes) :
    some '\n' ∉ parts.go state bytes := by
  induction bytes generalizing state with
  | nil => cases state <;> simp
  | cons b bytes ih =>
    rw [List.mem_cons, not_or] at h
    rw [parts.go_cons, List.mem_append, not_or]
    refine ⟨fun hmem => h.1 (eq_of_newline_mem_step hstate hmem).symm, ih ?_ h.2⟩
    intro q hq
    exact isLong_of_mem_step hstate hq

theorem start_of_lead? (h : lead? b = some p) : start b = ([], some p) := by
  have hb : ¬b < 0x80 := by
    intro hlt
    simp only [lead?, Bool.and_eq_true, decide_eq_true_eq, beq_iff_eq, UInt8.le_iff_toNat_le,
      ← UInt8.toNat_inj, UInt8.reduceToNat, UInt8.lt_iff_toNat_lt] at h hlt
    rw [if_neg (by omega), if_neg (by omega), if_neg (by omega), if_neg (by omega),
      if_neg (by omega), if_neg (by omega), if_neg (by omega)] at h
    contradiction
  rw [start, if_neg hb, h]

theorem lead?_of_two {n : Nat} (hlow : 2 ≤ n) (hhigh : n < 32) :
    lead? (UInt8.ofNat (n + 192)) = some { value := n, more := 0 } := by
  have h : ∀ n < 32, 2 ≤ n → lead? (UInt8.ofNat (n + 192)) = some { value := n, more := 0 } := by
    decide
  exact h n hhigh hlow

theorem lead?_of_three {n : Nat} (h : n < 16) :
    lead? (UInt8.ofNat (n + 224))
      =
    some { value := n, more := 1, low := if n = 0 then 0xA0 else 0x80,
           high := if n = 13 then 0x9F else 0xBF } := by
  revert n
  decide

theorem lead?_of_four {n : Nat} (h : n < 5) :
    lead? (UInt8.ofNat (n + 240))
      =
    some { value := n, more := 2, low := if n = 0 then 0x90 else 0x80,
           high := if n = 4 then 0x8F else 0xBF } := by
  revert n
  decide

theorem go_of_lead? (h : lead? b = some p) (bytes : List UInt8) :
    parts.go none (b :: bytes) = parts.go (some p) bytes := by
  rw [parts.go_cons, step, start_of_lead? h]
  rfl

/--
The bytes of six bits continue a character as long as the bounds allow them.
-/
theorem step_of_bits {value more n : Nat} {low high : UInt8}
    (hlow : low.toNat ≤ n % 64 + 128) (hhigh : n % 64 + 128 ≤ high.toNat) :
    step (some { value, more, low, high }) (UInt8.ofNat (n % 64 + 128))
      =
    match more with
    | 0 => ([some (Char.ofNat (value * 64 + n % 64))], none)
    | more + 1 => ([], some { value := value * 64 + n % 64, more }) := by
  have hnat : (UInt8.ofNat (n % 64 + 128)).toNat = n % 64 + 128 :=
    toNat_ofNat_of_lt (by omega)
  have hbounds : low ≤ UInt8.ofNat (n % 64 + 128) ∧ UInt8.ofNat (n % 64 + 128) ≤ high := by
    rw [UInt8.le_iff_toNat_le, UInt8.le_iff_toNat_le, hnat]
    exact ⟨hlow, hhigh⟩
  have hbits : (n % 64 + 128) % 64 = n % 64 := by omega
  cases more with
  | zero => simp only [step, hbounds, decide_true, Bool.and_self, if_true, hnat, hbits]
  | succ more => simp only [step, hbounds, decide_true, Bool.and_self, if_true, hnat, hbits]

theorem step_of_tail (value more n : Nat) :
    step (some { value, more }) (UInt8.ofNat (n % 64 + 128))
      =
    match more with
    | 0 => ([some (Char.ofNat (value * 64 + n % 64))], none)
    | more + 1 => ([], some { value := value * 64 + n % 64, more }) := by
  apply step_of_bits
  · exact Nat.le_add_left _ _
  · change _ ≤ 191
    omega

/--
What encodes a character is decoded to it, and what comes behind is decoded by itself.
-/
theorem go_utf8EncodeChar (c : Char) (bytes : List UInt8) :
    parts.go none (String.utf8EncodeChar c ++ bytes) = some c :: parts.go none bytes := by
  have hvalid : c.val.toNat < 0xD800 ∨ 0xDFFF < c.val.toNat ∧ c.val.toNat < 0x110000 := c.valid
  have hchar : Char.ofNat c.val.toNat = c := Char.ofNat_toNat c
  unfold String.utf8EncodeChar
  generalize c.val.toNat = n at hvalid hchar
  dsimp only
  split
  · next hn =>
    have hnat : (UInt8.ofNat n).toNat = n := toNat_ofNat_of_lt (by omega)
    have hlt : UInt8.ofNat n < 0x80 := by
      rw [UInt8.lt_iff_toNat_lt, hnat]
      exact Nat.lt_succ_of_le hn
    rw [List.singleton_append, parts.go_cons, step, start_of_lt hlt, hnat, hchar]
    rfl
  split
  · have hvalue : n / 64 * 64 + n % 64 = n := by omega
    simp only [List.cons_append, List.nil_append]
    rw [Nat.mod_eq_of_lt (by omega : n / 64 < 32), go_of_lead? (lead?_of_two (by omega) (by omega)),
      parts.go_cons, step_of_tail]
    simp only [hvalue, hchar, List.singleton_append]
  split
  · have hvalue : (n / 4096 * 64 + n / 64 % 64) * 64 + n % 64 = n := by omega
    simp only [List.cons_append, List.nil_append]
    rw [Nat.mod_eq_of_lt (by omega : n / 4096 < 16), go_of_lead? (lead?_of_three (by omega)),
      parts.go_cons, step_of_bits]
    · simp only [List.nil_append]
      rw [parts.go_cons, step_of_tail]
      simp only [hvalue, hchar, List.singleton_append]
    -- The bounds on the second byte exclude overlong forms and surrogates.
    · split
      · change 0xA0 ≤ _
        omega
      · exact Nat.le_add_left _ _
    · split
      · change _ ≤ 0x9F
        omega
      · change _ ≤ 0xBF
        omega
  · have hvalue : ((n / 262144 * 64 + n / 4096 % 64) * 64 + n / 64 % 64) * 64 + n % 64 = n := by
      omega
    simp only [List.cons_append, List.nil_append]
    rw [Nat.mod_eq_of_lt (by omega : n / 262144 < 8), go_of_lead? (lead?_of_four (by omega)),
      parts.go_cons, step_of_bits]
    · simp only [List.nil_append]
      rw [parts.go_cons, step_of_tail]
      simp only [List.nil_append]
      rw [parts.go_cons, step_of_tail]
      simp only [hvalue, hchar, List.singleton_append]
    -- Here they exclude overlong forms and what is larger than any character.
    · split
      · change 0x90 ≤ _
        omega
      · exact Nat.le_add_left _ _
    · split
      · change _ ≤ 0x8F
        omega
      · change _ ≤ 0xBF
        omega

end Utf8

variable {bytes : List UInt8}

theorem decodeLossy_append_newline (front back : List UInt8) :
    decodeLossy (front ++ 10 :: back) = decodeLossy front ++ '\n' :: decodeLossy back := by
  have h := @Utf8.go_append_of_lt none 10 (by simp) (by decide) front back
  rw [decodeLossy, Utf8.parts, h, List.map_append, List.map_cons]
  rfl

theorem newline_notMem_decodeLossy (h : 10 ∉ bytes) : '\n' ∉ decodeLossy bytes := by
  intro hmem
  obtain ⟨part, hpart, hchar⟩ := List.mem_map.1 hmem
  cases part with
  | none => contradiction
  | some c =>
    obtain rfl : c = '\n' := hchar
    exact Utf8.newline_notMem_go (by simp) h hpart

theorem decodeLossy_intercalate {pieces : List (List UInt8)} (h : pieces ≠ []) :
    decodeLossy ([10].intercalate pieces) = ['\n'].intercalate (pieces.map decodeLossy) := by
  induction pieces with
  | nil => contradiction
  | cons piece pieces ih =>
    by_cases hrest : pieces = []
    · simp [hrest]
    · rw [List.intercalate_cons_of_ne_nil hrest, List.append_assoc, List.singleton_append,
        decodeLossy_append_newline, ih hrest, List.map_cons,
        List.intercalate_cons_of_ne_nil (by simpa using hrest), List.append_assoc,
        List.singleton_append]

theorem lines_decodeLossy (bytes : List UInt8) :
    lines (decodeLossy bytes) = (bytes.splitOn 10).map decodeLossy := by
  have hne : bytes.splitOn 10 ≠ [] := List.splitOn_ne_nil 10 bytes
  have hbytes : [10].intercalate (bytes.splitOn 10) = bytes := List.intercalate_splitOn 10
  have hpieces : ∀ line ∈ (bytes.splitOn 10).map decodeLossy, '\n' ∉ line := by
    intro line hline
    obtain ⟨piece, hpiece, rfl⟩ := List.mem_map.1 hline
    exact newline_notMem_decodeLossy (of_mem_splitOn hpiece).1
  calc lines (decodeLossy bytes)
    _ = lines (['\n'].intercalate ((bytes.splitOn 10).map decodeLossy)) := by
      rw [← decodeLossy_intercalate hne, hbytes]
    _ = (bytes.splitOn 10).map decodeLossy := by
      rw [lines_intercalate (by simp), flatMap_lines_of_notMem hpieces]

theorem parts_encode (s : List Char) : Utf8.parts (encode s) = s.map some := by
  induction s with
  | nil => rfl
  | cons c s ih =>
    rw [encode_cons, Utf8.parts, Utf8.go_utf8EncodeChar, List.map_cons, ← ih]
    rfl

theorem decodeLossy_encode (s : List Char) : decodeLossy (encode s) = s := by
  rw [decodeLossy, parts_encode, List.map_map]
  exact List.map_id s

theorem encode_injective : Function.Injective encode :=
  Function.LeftInverse.injective decodeLossy_encode

end Text
end LuaCodex
