/-!
This module contains the decoding of UTF-8. Bytes that are not UTF-8 are divided into parts, each of
which is as long as it can be and still the beginning of a character, or a single byte.

The decoder goes from byte to byte. Between two bytes it knows at most a character that has begun.
-/

namespace LuaCodex
namespace Text

namespace Utf8

/--
A character that has begun.
-/
structure Pending where
  /-- The bits read so far. -/
  value : Nat
  /-- The number of bytes that are due, not counting the next one. -/
  more : Nat
  /-- The least byte that can come next. -/
  low : UInt8 := 0x80
  /-- The greatest byte that can come next. -/
  high : UInt8 := 0xBF
deriving DecidableEq, Repr

/--
The state after the first byte of a character of several bytes. The bounds of the second byte rule
out overlong forms, surrogates and codes that are too large.
-/
def lead? (b : UInt8) : Option Pending :=
  if 0xC2 ≤ b && b ≤ 0xDF then some { value := b.toNat - 0xC0, more := 0 }
  else if b == 0xE0 then some { value := 0, more := 1, low := 0xA0 }
  else if b == 0xED then some { value := 0xD, more := 1, high := 0x9F }
  else if 0xE1 ≤ b && b ≤ 0xEF then some { value := b.toNat - 0xE0, more := 1 }
  else if b == 0xF0 then some { value := 0, more := 2, low := 0x90 }
  else if b == 0xF4 then some { value := 4, more := 2, high := 0x8F }
  else if 0xF1 ≤ b && b ≤ 0xF3 then some { value := b.toNat - 0xF0, more := 2 }
  else none

/--
Take in a byte where a character begins. An invalid part shows as `none`.
-/
def start (b : UInt8) : List (Option Char) × Option Pending :=
  if b < 0x80 then
    ([some (Char.ofNat b.toNat)], none)
  else
    match lead? b with
    | some pending => ([], some pending)
    | none => ([none], none)

/--
Take in a byte.
-/
def step (state : Option Pending) (b : UInt8) : List (Option Char) × Option Pending :=
  match state with
  | none => start b
  | some pending =>
    if pending.low ≤ b && b ≤ pending.high then
      let value := pending.value * 64 + b.toNat % 64
      match pending.more with
      | 0 => ([some (Char.ofNat value)], none)
      | more + 1 => ([], some { value, more })
    else
      let (parts, state) := start b
      (none :: parts, state)

/--
The characters and the invalid parts of a sequence of bytes.
-/
def parts (bytes : List UInt8) : List (Option Char) :=
  go none bytes
where
  go (state : Option Pending) : List UInt8 → List (Option Char)
    | [] => if state.isSome then [none] else []
    | b :: bytes =>
      let (parts, state) := step state b
      parts ++ go state bytes

theorem start_of_lt {b : UInt8} (h : b < 0x80) :
    start b = ([some (Char.ofNat b.toNat)], none) := by
  simp [start, h]

@[simp]
theorem parts.go_nil (state : Option Pending) :
    parts.go state [] = if state.isSome then [none] else [] := rfl

@[simp]
theorem parts.go_cons (state : Option Pending) (b : UInt8) (bytes : List UInt8) :
    parts.go state (b :: bytes) = (step state b).1 ++ parts.go (step state b).2 bytes := rfl

/--
A byte of ASCII ends a character that has begun, so what comes behind it is decoded by itself.
-/
theorem step_snd_of_lt {b : UInt8} (h : b < 0x80) (state : Option Pending)
    (low : ∀ p ∈ state, 0x80 ≤ p.low) : (step state b).2 = none := by
  cases state with
  | none => simp [step, start_of_lt h]
  | some p =>
    have hlow : ¬ p.low ≤ b := by
      have := low p rfl
      simp only [UInt8.le_iff_toNat_le, UInt8.lt_iff_toNat_lt] at *
      omega
    simp [step, hlow, start_of_lt h]

end Utf8

/--
Decode bytes. Each invalid part becomes a replacement character.
-/
def decodeLossy (bytes : List UInt8) : List Char :=
  (Utf8.parts bytes).map (·.getD '\uFFFD')

/--
Decode bytes, none of which may be invalid.
-/
def decode? (bytes : List UInt8) : Option (List Char) :=
  (Utf8.parts bytes).mapM id

end Text
end LuaCodex
