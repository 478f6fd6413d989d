import LuaCodex.Json.Fault
import LuaCodex.Text.Keyword

/-!
This module contains the strings of JSON. An escape can stand for one half of a surrogate pair, so
what is written between the quotes is a sequence of characters and surrogates. It stands for a text
if the surrogates are paired.
-/

namespace LuaCodex
namespace Json

/--
A part of a string.
-/
inductive Piece where
  | char (c : Char)
  /-- An escape for a code between `D800` and `DFFF`. -/
  | surrogate (code : Nat)
deriving DecidableEq, Repr

/--
A string as far as it could be read. A string that is not closed has a fault.
-/
structure Quoted where
  pieces : List Piece
  fault : Option Fault := none
deriving DecidableEq, Repr

namespace Piece

/--
The piece that an escape with a code stands for.
-/
def ofCode (code : Nat) : Piece :=
  if 0xD800 ≤ code && code < 0xE000 then surrogate code else char (Char.ofNat code)

end Piece

namespace Quoted

/--
The value of a hexadecimal digit.
-/
def hexDigit? (c : Char) : Option Nat :=
  let n := c.toNat
  if 48 ≤ n && n ≤ 57 then some (n - 48)
  else if 65 ≤ n && n ≤ 70 then some (n - 55)
  else if 97 ≤ n && n ≤ 102 then some (n - 87)
  else none

/--
The character that a backslash and a letter stand for.
-/
def unescape? (c : Char) : Option Char :=
  if c = '"' || c = '\\' || c = '/' then some c
  else if c = 'b' then some '\x08'
  else if c = 't' then some '\t'
  else if c = 'n' then some '\n'
  else if c = 'f' then some '\x0c'
  else if c = 'r' then some '\r'
  else none

/--
Put a piece in front of a string that has been read, and keep the text behind it.
-/
def push (piece : Piece) (read : Quoted × Option (List Char)) : Quoted × Option (List Char) :=
  ({ read.1 with pieces := piece :: read.1.pieces }, read.2)

/--
A string that breaks off.
-/
def stop (fault : Fault) : Quoted × Option (List Char) :=
  (⟨[], some fault⟩, none)

/--
Where a reader stands within a string.
-/
inductive Place where
  | plain
  /-- Behind a backslash. -/
  | escape
  /-- Behind some hexadecimal digits of an escape, which denote a value. -/
  | hex (count value : Nat)
deriving DecidableEq, Repr

/--
Read a string from some place in it. An escape with fewer than four bytes behind its letter breaks
off, whatever these bytes are.
-/
def scanFrom : Place → List Char → Quoted × Option (List Char)
  | _, [] => stop .endInString
  | .plain, c :: s =>
    if c = '"' then
      (⟨[], none⟩, some s)
    else if c = '\\' then
      scanFrom .escape s
    else if c.toNat < 0x20 then
      stop .controlCharacter
    else
      push (.char c) (scanFrom .plain s)
  | .escape, c :: s =>
    if c = 'u' then
      scanFrom (.hex 0 0) s
    else
      match unescape? c with
      | some c => push (.char c) (scanFrom .plain s)
      | none => stop .invalidEscape
  | .hex count value, c :: s =>
    match hexDigit? c with
    | some digit =>
      let value := value * 16 + digit
      if count < 3 then
        scanFrom (.hex (count + 1) value) s
      else
        push (.ofCode value) (scanFrom .plain s)
    | none =>
      stop (if count + Text.byteLength (c :: s) < 4 then .endInString else .invalidEscape)

/--
Read a string behind its opening quote. The second result is the text behind the closing quote.
-/
def scan (s : List Char) : Quoted × Option (List Char) :=
  scanFrom .plain s

/--
The character that a pair of surrogates stands for.
-/
def pairChar (high low : Nat) : Char :=
  Char.ofNat (0x10000 + (high - 0xD800) * 0x400 + (low - 0xDC00))

/--
The text that some pieces stand for, unless there is a surrogate that is not paired. The first half
of a pair can stand in front of the pieces.
-/
def join (fault : Option Fault) : Option Nat → List Piece → Except Fault (List Char)
  | none, [] => fault.elim (.ok []) .error
  | some _, [] => .error (if fault = some .endInString then .endInString else .halfPair)
  | none, .char c :: pieces => (join fault none pieces).map (c :: ·)
  | some _, .char _ :: _ => .error .halfPair
  | none, .surrogate code :: pieces =>
    if 0xDC00 ≤ code then .error .loneSurrogate else join fault (some code) pieces
  | some high, .surrogate low :: pieces =>
    if 0xDC00 ≤ low then
      (join fault none pieces).map (pairChar high low :: ·)
    else
      .error .loneSurrogate

/--
The text that a string stands for.
-/
def text (q : Quoted) : Except Fault String :=
  (join q.fault none q.pieces).map String.ofList

/--
The string that stands for a text.
-/
def ofText (s : String) : Quoted :=
  ⟨s.toList.map .char, none⟩

/--
The hexadecimal digit with a value below 16.
-/
def hexDigit (n : Nat) : Char :=
  if n < 10 then Char.ofNat (48 + n) else Char.ofNat (87 + n)

/--
The escape for a code below 65536.
-/
def escapeCode (code : Nat) : List Char :=
  ['\\', 'u', hexDigit (code / 4096 % 16), hexDigit (code / 256 % 16), hexDigit (code / 16 % 16),
    hexDigit (code % 16)]

/--
The written form of a piece. Only quotes, backslashes and control characters are escaped.
-/
def printPiece : Piece → List Char
  | .surrogate code => escapeCode code
  | .char c =>
    if c = '"' then ['\\', '"']
    else if c = '\\' then ['\\', '\\']
    else if c = '\x08' then ['\\', 'b']
    else if c = '\x0c' then ['\\', 'f']
    else if c = '\n' then ['\\', 'n']
    else if c = '\r' then ['\\', 'r']
    else if c = '\t' then ['\\', 't']
    else if c.toNat < 0x20 then escapeCode c.toNat
    else [c]

/--
The written form of a string.
-/
def print (q : Quoted) : List Char :=
  '"' :: q.pieces.flatMap printPiece ++ ['"']

end Quoted
end Json
end LuaCodex
