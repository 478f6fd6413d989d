import LuaCodex.Json.Basic

/-!
This module contains the reading of JSON values from a text. Reading stops at the first fault, which
becomes the last leaf of the value. The text behind a value is known only if there is no fault.
-/

namespace LuaCodex
namespace Json

/--
Decide whether a character can stand between the tokens of JSON.
-/
def isSpace (c : Char) : Bool :=
  c == ' ' || c == '\n' || c == '\t' || c == '\r'

/--
Drop the space in front of a token.
-/
def skipSpace (s : List Char) : List Char :=
  s.dropWhile isSpace

/--
Read the rest of a literal.
-/
def scanLiteral (value : Json) : List Char → List Char → Json × Option (List Char)
  | [], s => (value, some s)
  | _ :: _, [] => (broken .endInValue, none)
  | w :: word, c :: s => if c = w then scanLiteral value word s else (broken .expectedLiteral, none)

/--
Read a number.
-/
def scanNumber (s : List Char) : Json × Option (List Char) :=
  match Numeral.scan s with
  | .ok (n, s) => (number n, some s)
  | .error fault => (broken fault, none)

/--
The members of an object whose text breaks off in front of a key.
-/
def stopMembers (fault : Fault) : List (Quoted × Json) × Option (List Char) :=
  ([(⟨[], some fault⟩, broken fault)], none)

mutual

/--
Read a value. The `fuel` bounds the number of calls.
-/
def scanValue : Nat → List Char → Json × Option (List Char)
  | 0, _ => (broken .endInValue, none)
  | fuel + 1, s =>
    match skipSpace s with
    | [] => (broken .endInValue, none)
    | c :: s =>
      if c = '"' then
        let (q, s) := Quoted.scan s
        (string q, s)
      else if c = '[' then
        let (items, s) := scanItems fuel true s
        (array items, s)
      else if c = '{' then
        let (members, s) := scanMembers fuel true s
        (object members, s)
      else if c = 'n' then
        scanLiteral null "ull".toList s
      else if c = 't' then
        scanLiteral (bool true) "rue".toList s
      else if c = 'f' then
        scanLiteral (bool false) "alse".toList s
      else if c = '-' || c.isDigit then
        scanNumber (c :: s)
      else
        (broken .expectedValue, none)

/--
Read the items of an array up to its end. With `first` no item has been read yet.
-/
def scanItems : Nat → Bool → List Char → List Json × Option (List Char)
  | 0, _, _ => ([broken .endInArray], none)
  | fuel + 1, first, s =>
    match skipSpace s with
    | [] => ([broken .endInArray], none)
    | c :: s =>
      if c = ']' then
        ([], some s)
      else if first then
        scanItem fuel (c :: s)
      else if c = ',' then
        if (skipSpace s).head? = some ']' then ([broken .trailingComma], none) else scanItem fuel s
      else
        ([broken .expectedArrayEnd], none)

/--
Read an item of an array and all that follows up to the end of the array.
-/
def scanItem : Nat → List Char → List Json × Option (List Char)
  | 0, _ => ([broken .endInValue], none)
  | fuel + 1, s =>
    match scanValue fuel s with
    | (item, none) => ([item], none)
    | (item, some s) =>
      let (items, s) := scanItems fuel false s
      (item :: items, s)

/--
Read the members of an object up to its end. With `first` no member has been read yet.
-/
def scanMembers : Nat → Bool → List Char → List (Quoted × Json) × Option (List Char)
  | 0, _, _ => stopMembers .endInObject
  | fuel + 1, first, s =>
    match skipSpace s with
    | [] => stopMembers .endInObject
    | c :: s =>
      if c = '}' then
        ([], some s)
      else if first then
        scanMember fuel (c :: s)
      else if c = ',' then
        if (skipSpace s).head? = some '}' then stopMembers .trailingComma else scanMember fuel s
      else
        stopMembers .expectedObjectEnd

/--
Read a member of an object and all that follows up to the end of the object.
-/
def scanMember : Nat → List Char → List (Quoted × Json) × Option (List Char)
  | 0, _ => stopMembers .endInValue
  | fuel + 1, s =>
    match skipSpace s with
    | [] => stopMembers .endInValue
    | c :: s =>
      if c = '"' then
        match Quoted.scan s with
        | (key, none) => ([(key, broken .endInString)], none)
        | (key, some s) =>
          match skipSpace s with
          | [] => ([(key, broken .endInObject)], none)
          | c :: s =>
            if c = ':' then
              match scanValue fuel s with
              | (value, none) => ([(key, value)], none)
              | (value, some s) =>
                let (members, s) := scanMembers fuel false s
                ((key, value) :: members, s)
            else
              ([(key, broken .expectedColon)], none)
      else
        stopMembers .keyNotString

end

/--
Read the value at the start of a text.
-/
def scan (s : List Char) : Json × Option (List Char) :=
  scanValue (3 * s.length + 1) s

end Json
end LuaCodex
