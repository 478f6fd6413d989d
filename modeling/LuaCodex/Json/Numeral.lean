import LuaCodex.Json.Fault

/-!
This module contains the numbers of JSON as they are written, and the test whether such a number is
in the range of double precision.
-/

namespace LuaCodex
namespace Json

/--
A written number. The digits in front of the point are never empty. An exponent has a sign, which is
true if it is negative, and digits.
-/
structure Numeral where
  negative : Bool := false
  whole : List Char
  fraction : List Char := []
  exponent : Option (Bool × List Char) := none
deriving DecidableEq, Repr

namespace Numeral

/--
Read a number at the start of a text. The second result is the text behind it.
-/
def scan (s : List Char) : Except Fault (Numeral × List Char) := do
  let (negative, s) := sign s
  let (whole, s) ← integer s
  let (fraction, s) ← fraction s
  let (exponent, s) ← exponent s
  return ({ negative, whole, fraction, exponent }, s)
where
  /--
  Read a sign. It is true if it is negative.
  -/
  sign (s : List Char) : Bool × List Char :=
    match s with
    | '-' :: s => (true, s)
    | s => (false, s)
  /--
  Read one or more digits.
  -/
  digits (s : List Char) : Except Fault (List Char × List Char) :=
    match s with
    | [] => .error .endInNumber
    | c :: _ =>
      if c.isDigit then
        .ok (s.takeWhile Char.isDigit, s.dropWhile Char.isDigit)
      else
        .error .invalidNumber
  /--
  Read one or more digits. A zero has no other digit behind it.
  -/
  integer (s : List Char) : Except Fault (List Char × List Char) := do
    let (ds, rest) ← digits s
    if ds.head? = some '0' && 1 < ds.length then .error .invalidNumber else .ok (ds, rest)
  /--
  Read a point with digits behind it, if there is a point.
  -/
  fraction (s : List Char) : Except Fault (List Char × List Char) :=
    match s with
    | '.' :: s => digits s
    | s => .ok ([], s)
  /--
  Read an exponent if there is one.
  -/
  exponent (s : List Char) : Except Fault (Option (Bool × List Char) × List Char) :=
    match s with
    | c :: s =>
      if c = 'e' || c = 'E' then
        match s with
        | '-' :: s => (digits s).map fun (ds, s) => (some (true, ds), s)
        | '+' :: s => (digits s).map fun (ds, s) => (some (false, ds), s)
        | s => (digits s).map fun (ds, s) => (some (false, ds), s)
      else
        .ok (none, c :: s)
    | [] => .ok (none, [])

/--
The written form of a number.
-/
def print (n : Numeral) : List Char :=
  (if n.negative then ['-'] else []) ++ n.whole
    ++ (if n.fraction = [] then [] else '.' :: n.fraction)
    ++ (match n.exponent with
      | none => []
      | some (negative, ds) => 'e' :: (if negative then ['-'] else []) ++ ds)

/--
The value of a decimal digit.
-/
def digitValue (c : Char) : Nat :=
  c.toNat - 48

/--
A natural number rounded to 53 binary digits, to the even neighbour if it lies halfway.
-/
def roundTo53 (n : Nat) : Nat :=
  let unit := Nat.pow 2 (n.log2 - 52)
  let low := n / unit * unit
  let rest := n - low
  if 2 * rest < unit || (2 * rest == unit && n / unit % 2 == 0) then low else low + unit

/--
Take digits into a significand of 64 binary digits as long as they fit. The other results are the
number of digits taken and the number of digits left over.
-/
def accumulate (significand taken : Nat) : List Char → Nat × Nat × Nat
  | [] => (significand, taken, 0)
  | d :: ds =>
    let next := significand * 10 + digitValue d
    if next < Nat.pow 2 64 then
      accumulate next (taken + 1) ds
    else
      (significand, taken, ds.length + 1)

/--
Decide whether the magnitude of a number can be represented in double precision. It is computed as a
significand times or divided by a power of ten, both of them rounded. Digits that do not fit into
the significand count for their place only. A product is too large if it is nearer to `2 ^ 1024`
than to the largest number below.
-/
def inRange (n : Numeral) : Bool :=
  let (significand, _, left) := accumulate 0 0 n.whole
  let (significand, places, _) := accumulate significand 0 n.fraction
  let written : Int := match n.exponent with
    | none => 0
    | some (negative, ds) =>
      let value := ds.foldl (fun v d => v * 10 + digitValue d) 0
      if negative then -value else value
  let exponent := written + left - places
  if significand = 0 || exponent ≤ 0 then
    true
  else
    exponent ≤ 308
      && roundTo53 significand * roundTo53 (Nat.pow 10 exponent.toNat)
        < Nat.pow 2 1024 - Nat.pow 2 970

end Numeral
end Json
end LuaCodex
