import LuaCodex.Entry
import LuaCodex.Json.Scan

/-!
This module contains the reading of typed values from JSON. A value is read in the order of its
text, so of several defects the first one counts.

A record is written as an object. Fields that are not required can be left out, members that are no
fields are passed over, and a field must not be repeated. Some records can be written as an array of
their fields as well, where fields at the end can be left out.
-/

namespace LuaCodex
namespace Json

/--
A way in which a JSON value does not have the due shape.
-/
inductive Mismatch where
  /-- A value of another kind is due. -/
  | kind (found expected : String)
  /-- An array has too few or too many items. -/
  | length (count : Nat) (expected : String)
  | missing (field : String)
  | duplicate (field : String)
deriving DecidableEq, Repr

/--
The description of a mismatch.
-/
def Mismatch.message : Mismatch → String
  | kind found expected => "invalid type: " ++ found ++ ", expected " ++ expected
  | length count expected => "invalid length " ++ toString count ++ ", expected " ++ expected
  | missing field => "missing field `" ++ field ++ "`"
  | duplicate field => "duplicate field `" ++ field ++ "`"

/--
A number of elements in words.
-/
def elements (n : Nat) : String :=
  toString n ++ if n = 1 then " element" else " elements"

/--
A reason for which no typed value can be read.
-/
inductive Refusal where
  | fault (f : Fault)
  | mismatch (m : Mismatch)
deriving DecidableEq, Repr

namespace Refusal

/--
The category of a refusal.
-/
def category : Refusal → Category
  | fault f => f.category
  | mismatch _ => .data

/--
The description of a refusal.
-/
def message : Refusal → String
  | fault f => f.message
  | mismatch m => m.message

end Refusal

/--
The result of reading a typed value.
-/
abbrev Reading (α : Type) := Except Refusal α

/--
The refusal of a value because one of another kind is due. The text of a number or a string is
checked before its kind is, the content of an array or an object is not.
-/
def refuse (v : Json) (expected : String) : Refusal :=
  match v with
  | null => mismatch "null"
  | bool b => mismatch ("boolean `" ++ toString b ++ "`")
  | number n =>
    if n.inRange then
      let form := if n.fraction = [] && n.exponent.isNone then "integer" else "floating point"
      mismatch (form ++ " `" ++ String.ofList n.print ++ "`")
    else
      .fault .numberOutOfRange
  | string s =>
    match s.text with
    | .ok _ => mismatch ("string " ++ String.ofList s.print)
    | .error f => .fault f
  | array _ => mismatch "sequence"
  | object _ => mismatch "map"
  | broken f => .fault f
where
  mismatch (found : String) : Refusal :=
    .mismatch (.kind found expected)

/--
The text of a string that is kept.
-/
def Quoted.read (s : Quoted) : Reading String :=
  s.text.mapError .fault

/--
Read a text.
-/
def readString : Json → Reading String
  | string s => s.read
  | v => .error (v.refuse "a string")

/--
Read a truth value.
-/
def readBool : Json → Reading Bool
  | bool b => .ok b
  | v => .error (v.refuse "a boolean")

/--
Read a value that can be null.
-/
def readOption {α : Type} (read : Json → Reading α) : Json → Reading (Option α)
  | null => .ok none
  | v => (read v).map some

/--
Read a list.
-/
def readList {α : Type} (read : Json → Reading α) : Json → Reading (List α)
  | array items => items.mapM read
  | v => .error (v.refuse "a sequence")

/--
Read a table. Of several members with one key the last one counts.
-/
def readTable {α : Type} (read : String → Json → Reading α) : Json → Reading (Table α)
  | object members => go ∅ members
  | v => .error (v.refuse "a map")
where
  go (table : Table α) : List (Quoted × Json) → Reading (Table α)
    | [] => .ok table
    | (key, value) :: members => do
      let name ← key.read
      let entry ← read name value
      go (table.insert name entry) members

/--
A field of a record of type `σ`.
-/
structure Field (σ : Type) where
  name : String
  /-- Whether a record without the field is refused. -/
  required : Bool := false
  /-- Read a value for the field and tell how it enters the record. -/
  read : Json → Reading (σ → σ)

/--
A field whose value is put into a record by `set`.
-/
def Field.of {σ α : Type} (name : String) (read : Json → Reading α) (set : α → σ → σ)
    (required : Bool := false) : Field σ :=
  { name, required, read := fun v => (read v).map set }

/--
A kind of record.
-/
structure RecordFormat (σ : Type) where
  /-- What messages call the record. -/
  title : String
  /-- The fields in the order in which an array lists them. -/
  fields : List (Field σ)
  /-- A record without any field. -/
  start : σ

namespace RecordFormat

variable {σ : Type}

/--
Read the members of an object as fields of a record. The members that are no fields are given to
`other`. The second result lists the fields that have been read.
-/
def readMembers (format : RecordFormat σ) (other : Json → Except Fault Unit) :
    List (Quoted × Json) → Reading (σ × List String) :=
  go format.start []
where
  go (record : σ) (seen : List String) : List (Quoted × Json) → Reading (σ × List String)
    | [] => .ok (record, seen)
    | (key, value) :: members => do
      let name ← key.read
      match format.fields.find? (·.name == name) with
      | some field =>
        if name ∈ seen then
          .error (.mismatch (.duplicate name))
        else
          go ((← field.read value) record) (name :: seen) members
      | none =>
        (other value).mapError .fault
        go record seen members

/--
Read a record from the members of an object. No required field may be missing.
-/
def readObject (format : RecordFormat σ) (other : Json → Except Fault Unit)
    (members : List (Quoted × Json)) : Reading σ := do
  let (record, seen) ← format.readMembers other members
  match format.fields.find? fun field => field.required && field.name ∉ seen with
  | some field => .error (.mismatch (.missing field.name))
  | none => .ok record

/--
Read a record from the items of an array. The items behind the last field are given to `excess`.
-/
def readItems (format : RecordFormat σ) (excess : List Json → Reading Unit) (items : List Json) :
    Reading σ :=
  go format.start format.fields items
where
  go (record : σ) : List (Field σ) → List Json → Reading σ
    | [], items => do
      excess items
      return record
    | field :: fields, [] =>
      if field.required then
        let expected := format.title ++ " with " ++ elements format.fields.length
        .error (.mismatch (.length items.length expected))
      else
        go record fields []
    | field :: fields, item :: items => do
      go ((← field.read item) record) fields items

/--
The check of the items behind the last field of a record that is read along with the text. There
must be none. If the text ends in front of the next comma or the array right behind it, this is
noticed first.
-/
def noExcess : List Json → Reading Unit
  | [] => .ok ()
  | broken .endInArray :: _ => .error (.fault .endInArray)
  | broken .trailingComma :: _ => .error (.fault .trailingComma)
  | _ :: _ => .error (.fault .trailingText)

/--
Read a record along with the text. It can be written as an object or as an array.
-/
def read (format : RecordFormat σ) : Json → Reading σ
  | object members => format.readObject skim members
  | array items => format.readItems noExcess items
  | v => .error (v.refuse format.title)

/--
Read a record from a value that has been checked before. It can be written as an object or as an
array.
-/
def readChecked (format : RecordFormat σ) : Json → Reading σ
  | object members => format.readObject (fun _ => .ok ()) members
  | array items =>
    let excess : List Json → Reading Unit
      | [] => .ok ()
      | _ =>
        let expected := elements format.fields.length ++ " in sequence"
        .error (.mismatch (.length items.length expected))
    format.readItems excess items
  | v => .error (v.refuse format.title)

end RecordFormat
end Json
end LuaCodex
