import LuaCodex.Proofs.Extraction.Block
import LuaCodex.Proofs.Meaning.ReturnStyle

/-!
This module contains the relation between the documents that are extracted with the two ways to
divide the text behind a `@return` tag. The main statement is that they differ in the return values
only, and how these differ.
-/

namespace LuaCodex

open Text

/--
Move the names of the return values into their descriptions.
-/
def Doc.foldReturns (doc : Doc) : Doc :=
  { doc with returns := doc.returns.map Return.fold }

/--
Fold the return values of a method.
-/
def Method.foldReturns (m : Method) : Method :=
  { m with doc := m.doc.foldReturns }

/--
Fold the return values of an event.
-/
def Event.foldReturns (e : Event) : Event :=
  { e with doc := e.doc.foldReturns }

/--
Fold the return values of all members of a class.
-/
def ApiClass.foldReturns (entry : ApiClass) : ApiClass :=
  { entry with
    methods := entry.methods.map fun _ => Method.foldReturns
    events := entry.events.map fun _ => Event.foldReturns }

/--
Move the names of all return values into their descriptions.
-/
def Document.foldReturns (document : Document) : Document :=
  { document with classes := document.classes.map fun _ => ApiClass.foldReturns }

theorem Table.map_insert {α β : Type} (f : α → β) (table : Table α) (name : String) (entry : α) :
    (table.insert name entry).map (fun _ => f) = (table.map fun _ => f).insert name (f entry) := by
  apply Std.ExtTreeMap.ext_getElem?
  intro other
  rw [Std.ExtTreeMap.getElem?_map, Std.ExtTreeMap.getElem?_insert, Std.ExtTreeMap.getElem?_insert,
    Std.ExtTreeMap.getElem?_map]
  split <;> rfl

theorem Table.map_empty {α β : Type} (f : α → β) :
    (∅ : Table α).map (fun _ => f) = (∅ : Table β) := by
  apply Std.ExtTreeMap.ext_getElem?
  intro name
  rw [Std.ExtTreeMap.getElem?_map, Std.ExtTreeMap.getElem?_empty, Std.ExtTreeMap.getElem?_empty]
  rfl

theorem ApiClass.foldReturns_start (name : String) :
    ({ name } : ApiClass).foldReturns = { name } := by
  simp [foldReturns, Table.map_empty]

namespace Extraction

theorem addMember_foldReturns (entry : ApiClass) (doc : Doc) (name : String) (kind : MemberKind) :
    addMember entry.foldReturns doc.foldReturns name kind
      =
    (addMember entry doc name kind).foldReturns := by
  cases kind with
  | method isStatic =>
    simp only [addMember, ApiClass.foldReturns, Table.map_insert]
    rfl
  | event =>
    simp only [addMember, ApiClass.foldReturns, Table.map_insert]
    rfl

namespace State

/--
Fold the return values of all classes and of the block that has been collected.
-/
def foldReturns (s : State) : State :=
  { s with
    classes := s.classes.map fun _ => ApiClass.foldReturns
    current := s.current.map ApiClass.foldReturns
    doc := s.doc.foldReturns }

theorem closeBlock_foldReturns (s : State) :
    s.foldReturns.closeBlock = s.closeBlock.foldReturns := by
  unfold closeBlock
  cases hcurrent : s.current with
  | none => simp [foldReturns, hcurrent, Doc.foldReturns]
  | some entry =>
    cases hname : s.name with
    | none => simp [foldReturns, hcurrent, hname, Doc.foldReturns]
    | some name =>
      cases hkind : s.kind with
      | none => simp [foldReturns, hcurrent, hname, hkind, Doc.foldReturns]
      | some kind =>
        simp only [foldReturns, hcurrent, hname, hkind, Option.map_some, addMember_foldReturns]
        rfl

theorem endClass_foldReturns (s : State) : s.foldReturns.endClass = s.endClass.foldReturns := by
  unfold endClass
  cases hcurrent : s.current with
  | none => simp [foldReturns, hcurrent]
  | some entry =>
    simp [foldReturns, hcurrent, Table.map_insert, ApiClass.foldReturns, Std.ExtTreeMap.size_map]

theorem review_foldReturns (s : State) (crossCheck : Bool) (signature : Signature) :
    s.foldReturns.review { style := .folded, crossCheck } signature
      =
    (s.review { style := .named, crossCheck } signature).foldReturns := by
  have hdeprecated : s.foldReturns.doc.isDeprecated = s.doc.isDeprecated := rfl
  unfold review
  rw [hdeprecated]
  split <;> rfl

theorem absorb_foldReturns (s : State) (crossCheck : Bool) (m : Meaning) :
    s.foldReturns.absorb { style := .folded, crossCheck } m.foldReturn
      =
    (s.absorb { style := .named, crossCheck } m).foldReturns := by
  cases m with
  | startsClass name =>
    simp only [Meaning.foldReturn, absorb, endClass_foldReturns]
    simp [foldReturns, ApiClass.foldReturns_start]
  | inherits parent =>
    simp only [Meaning.foldReturn, absorb]
    cases hcurrent : s.current <;> simp [foldReturns, hcurrent, ApiClass.foldReturns]
  | declaresMethod signature =>
    simp only [Meaning.foldReturn, absorb, review_foldReturns]
    rfl
  | declaresEvent name => rfl
  | param p => rfl
  | returns r => simp [Meaning.foldReturn, absorb, foldReturns, Doc.foldReturns]
  | deprecated text => cases text <;> rfl
  | comment text => rfl

theorem step_foldReturns (s : State) (crossCheck : Bool) (line : List Char) :
    s.foldReturns.step { style := .folded, crossCheck } line
      =
    (s.step { style := .named, crossCheck } line).foldReturns := by
  have hopen : ∀ close : Bool, (if close then s.foldReturns.closeBlock else s.foldReturns)
      = (if close then s.closeBlock else s).foldReturns := by
    intro close
    cases close with
    | false => rfl
    | true => exact closeBlock_foldReturns s
  have hclosing : s.foldReturns.closing = s.closing := rfl
  have hlast : s.foldReturns.lastBlank = s.lastBlank := rfl
  simp only [step, Meaning.ofLine?_folded (trimEnd_trim line), hclosing, hlast, hopen]
  cases Meaning.ofLine? .named (trim line) with
  | none => rfl
  | some m =>
    simp only [Option.map_some, absorb_foldReturns]
    rfl

theorem run_foldReturns (s : State) (crossCheck : Bool) (lines : List (List Char)) :
    s.foldReturns.run { style := .folded, crossCheck } lines
      =
    (s.run { style := .named, crossCheck } lines).foldReturns := by
  induction lines generalizing s with
  | nil => rfl
  | cons line lines ih => rw [run_cons, run_cons, step_foldReturns, ih]

theorem finish_foldReturns (s : State) :
    s.foldReturns.finish
      =
    { value := s.finish.value.foldReturns, notices := s.finish.notices } := by
  unfold finish
  rw [endClass_foldReturns]
  rfl

end State
end Extraction

/--
With `folded` the same document is extracted as with `named`, only that the names of return values
are part of their descriptions. The same notices are given.
-/
theorem Document.ofText_folded (crossCheck : Bool) (text : List Char) :
    let named := Document.ofText { style := .named, crossCheck } text
    Document.ofText { style := .folded, crossCheck } text
      =
    { value := named.value.foldReturns, notices := named.notices } := by
  have hinit : ({} : Extraction.State).foldReturns = {} := by
    simp [Extraction.State.foldReturns, Doc.foldReturns, Table.map_empty]
  have hrun := Extraction.State.run_foldReturns {} crossCheck (Text.lines text)
  rw [hinit] at hrun
  unfold Document.ofText Extraction.ofLines
  rw [hrun, Extraction.State.finish_foldReturns]

end LuaCodex
