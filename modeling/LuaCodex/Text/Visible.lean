/-!
This module contains the control sequences of terminals and the part of a text that shows if they
are taken out of it.
-/

namespace LuaCodex
namespace Text

/--
Decide whether a character is a control character that lays out a text.
-/
def isLayout (c : Char) : Bool :=
  c == '\t' || c == '\n' || c == '\x0C' || c == '\r'

/--
Decide whether a character shows outside of control sequences.
-/
def isVisible (c : Char) : Bool :=
  isLayout c || (' ' ≤ c && c ≠ '\x7F')

/--
What a text is in the middle of.
-/
inductive Stage where
  /-- Text that shows. -/
  | plain
  /-- A sequence behind its escape character. -/
  | escape
  /-- An escape sequence behind an intermediate character. -/
  | intermediate
  /-- A control sequence with parameters. -/
  | control
  /-- A command for the operating system. -/
  | command
  /-- A string for a device in front of its parameters. -/
  | deviceEntry
  /-- A string for a device within its parameters. -/
  | deviceParams
  /-- A string for a device behind an intermediate character. -/
  | deviceIntermediate
  /-- The content of a string. -/
  | string
deriving DecidableEq, Repr

namespace Stage

/--
The stage behind a character. An escape character starts a sequence at any stage, and the characters
for cancellation and substitution end one. A string also ends at a character with the byte 0x9C in
its encoding.
-/
def next (stage : Stage) (c : Char) : Stage :=
  if c = '\x1B' then
    escape
  else if c = '\x18' || c = '\x1A' then
    plain
  else
    match stage with
    | plain => plain
    | escape =>
      if c = '[' then control
      else if c = ']' then command
      else if c = 'P' then deviceEntry
      else if c = 'X' || c = '^' || c = '_' then string
      else if ' ' ≤ c && c ≤ '/' then intermediate
      else if '0' ≤ c && c ≤ '~' then plain
      else escape
    | intermediate => if '0' ≤ c && c ≤ '~' then plain else intermediate
    | control => if '@' ≤ c && c ≤ '~' then plain else control
    | command => if c = '\x07' then plain else command
    | deviceEntry =>
      if ' ' ≤ c && c ≤ '/' then deviceIntermediate
      else if '0' ≤ c && c ≤ '?' then deviceParams
      else if '@' ≤ c && c ≤ '~' then string
      else deviceEntry
    | deviceParams =>
      if ' ' ≤ c && c ≤ '/' then deviceIntermediate
      else if '<' ≤ c && c ≤ '~' then string
      else deviceParams
    | deviceIntermediate => if '0' ≤ c && c ≤ '~' then string else deviceIntermediate
    | string => if 0x9C ∈ String.utf8EncodeChar c then plain else string

/--
Decide whether a character shows. Of a sequence only the layout does, and of a command or a string
nothing.
-/
def shows (stage : Stage) (c : Char) : Bool :=
  match stage with
  | plain => isVisible c
  | escape | intermediate | control => isLayout c
  | _ => false

end Stage

/--
The part of a text that shows. Layout within a sequence interrupts it: what follows shows as well,
up to the next character that cannot. There the sequence goes on, unless a character outside of
ASCII has come in between.
-/
def visible (s : List Char) : List Char :=
  go .plain false s
where
  go (stage : Stage) (interrupted : Bool) : List Char → List Char
    | [] => []
    | c :: s =>
      if interrupted && isVisible c then
        c :: go (if c.toNat < 0x80 then stage else .plain) true s
      else if stage.shows c then
        c :: go (stage.next c) true s
      else
        go (stage.next c) false s

end Text
end LuaCodex
