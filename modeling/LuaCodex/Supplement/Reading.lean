import LuaCodex.Codex
import LuaCodex.Json.Record

/-!
This module contains the reading of supplements from JSON.

The members of a method or of an event are read completely before their documentation is looked up
among them. This is why they are checked as values that are kept, even those without a meaning.
-/

namespace LuaCodex

open Json

/--
The number of levels to which the members of a method or of an event can be nested. The method is
itself the fifth level, and the 128th level is refused.
-/
def memberRoom : Nat := 122

/--
Parameters in JSON.
-/
def Param.format : RecordFormat Param where
  title := "struct ParamEntry"
  fields := [
    .of "name" readString (fun name p => { p with name }) true,
    .of "type" readString fun type p => { p with type },
    .of "description" readString fun description p => { p with description }]
  start := { name := "" }

/--
Return values in JSON.
-/
def Return.format : RecordFormat Return where
  title := "struct ReturnEntry"
  fields := [
    .of "type" readString (fun type r => { r with type }) true,
    .of "name" (readOption readString) fun name r => { r with name },
    .of "description" readString fun description r => { r with description }]
  start := { type := "" }

/--
The documentation of methods and events in JSON.
-/
def Doc.format : RecordFormat Doc where
  title := "struct DocBlock"
  fields := [
    .of "deprecated" (readOption readBool) fun deprecated doc => { doc with deprecated },
    .of "description" readString fun description doc => { doc with description },
    .of "params" (readList Param.format.readChecked) fun params doc => { doc with params },
    .of "returns" (readList Return.format.readChecked) fun returns doc => { doc with returns }]
  start := {}

/--
The part of methods in JSON that is not documentation.
-/
def Method.format : RecordFormat Bool where
  title := "struct MethodEntry"
  fields := [.of "isMethodStatic" readBool (fun isStatic _ => isStatic) true]
  start := false

/--
The part of events in JSON that is not documentation: nothing.
-/
def Event.format : RecordFormat Unit where
  title := "struct EventEntry"
  fields := []
  start := ()

/--
Read a method.
-/
def Method.read : Json → Reading Method
  | object members => do
    let isStatic ← Method.format.readObject (keep memberRoom) members
    let doc ← Doc.format.readChecked (object members)
    return { isStatic, doc }
  | v => .error (v.refuse Method.format.title)

/--
Read an event.
-/
def Event.read : Json → Reading Event
  | object members => do
    Event.format.readObject (keep memberRoom) members
    let doc ← Doc.format.readChecked (object members)
    return { doc }
  | v => .error (v.refuse Event.format.title)

/--
Classes in JSON. They do not hold their own name.
-/
def ApiClass.format : RecordFormat ApiClass where
  title := "struct ClassEntry"
  fields := [
    .of "parent" (readOption readString) fun parent c => { c with parent },
    .of "methods" (readTable fun _ => Method.read) fun methods c => { c with methods },
    .of "events" (readTable fun _ => Event.read) fun events c => { c with events }]
  start := { name := "" }

/--
Read a class. Its name is the key that it stands under.
-/
def ApiClass.read (name : String) (v : Json) : Reading ApiClass :=
  (ApiClass.format.read v).map fun entry => { entry with name }

/--
Globals in JSON.
-/
def Global.format : RecordFormat Global where
  title := "struct GlobalEntry"
  fields := [.of "type" readString (fun type _ => { type }) true]
  start := { type := "" }

namespace Supplement

/--
Supplements in JSON.
-/
def format : RecordFormat Supplement where
  title := "struct Supplement"
  fields := [
    .of "classes" (readTable ApiClass.read) fun classes s => { s with classes },
    .of "globals" (readTable fun _ => Global.format.read) fun globals s => { s with globals }]
  start := {}

/--
Read a supplement from what a text holds. Nothing but space may follow it.
-/
def ofScan (scanned : Json × Option (List Char)) : Reading Supplement := do
  let supplement ← format.read scanned.1
  if scanned.2.all fun rest => (skipSpace rest).isEmpty then
    return supplement
  else
    throw (.fault .trailingText)

/--
Read a supplement from a text.
-/
def ofJson (text : String) : Reading Supplement :=
  ofScan (Json.scan text.toList)

end Supplement
end LuaCodex
