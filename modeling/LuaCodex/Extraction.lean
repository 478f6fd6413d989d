import LuaCodex.Document
import LuaCodex.Meaning.Form

/-!
This module contains the extraction of a document from annotated Lua, line by line.

Doc lines collect in a pending block. The declaration of a method or an event names the block, which
is then filed under the current class when the next line starts. Two blank lines in a row close the
pending block as well, but a block that nothing has named is dropped. A class ends where the next
one starts or the text ends. A declaration on the very last line is dropped, so that it counts only
if a line break follows.
-/

namespace LuaCodex

namespace Extraction

open Text

/--
The choices that an extraction depends on.
-/
structure Options where
  /-- How the text behind a `@return` tag is divided. -/
  style : ReturnStyle := .named
  /-- Whether arguments are compared with documented parameters. -/
  crossCheck : Bool := true
deriving DecidableEq, Repr, Inhabited

/--
The kind of member that a block documents.
-/
inductive MemberKind where
  | method (isStatic : Bool)
  | event
deriving DecidableEq, Repr

/--
What is known between two lines.
-/
structure State where
  /-- The classes that have ended. -/
  classes : Table ApiClass := ∅
  /-- The advisories on the methods declared so far. -/
  advisories : List Advisory := []
  /-- The notices given so far. -/
  notices : List Notice := []
  /-- The class that has not ended yet. -/
  current : Option ApiClass := none
  /-- The pending block. -/
  doc : Doc := {}
  /-- The name of the member that the pending block documents. -/
  name : Option String := none
  /-- The kind of this member. -/
  kind : Option MemberKind := none
  /-- Whether the pending block is closed when the next line starts. -/
  closing : Bool := false
  /-- Whether the last line was blank. The text behaves as if a blank line stood in front of it. -/
  lastBlank : Bool := true
deriving DecidableEq, Repr

/--
Add a text to the description of a block, as a line of its own.
-/
def describe (doc : Doc) (text : String) : Doc :=
  { doc with description := strip (doc.description ++ "\n" ++ text) }

/--
Put a documented member into a class.
-/
def addMember (entry : ApiClass) (doc : Doc) (name : String) : MemberKind → ApiClass
  | .method isStatic => { entry with methods := entry.methods.insert name { isStatic, doc } }
  | .event => { entry with events := entry.events.insert name { doc } }

namespace State

/--
File the pending block under the current class and start a new block. A block without a class, a
name or a kind is dropped.
-/
def closeBlock (s : State) : State :=
  { s with
    current := match s.current, s.name, s.kind with
      | some entry, some name, some kind => some (addMember entry s.doc name kind)
      | current, _, _ => current
    doc := {}
    name := none
    kind := none
    closing := false }

/--
End the current class.
-/
def endClass (s : State) : State :=
  match s.current with
  | none => s
  | some entry =>
    { s with
      classes := s.classes.insert entry.name entry
      notices := s.notices ++ [.classRead entry.name entry.methods.size entry.events.size]
      current := none }

/--
Compare the arguments of a method with the parameters of the pending block. Deprecated methods are
exempt.
-/
def review (s : State) (options : Options) (signature : Signature) : State :=
  if options.crossCheck && !s.doc.isDeprecated then
    let advisory := Advisory.compare signature.name signature.args (s.doc.params.map (·.name))
    { s with
      advisories := if advisory.isEmpty then s.advisories else s.advisories ++ [advisory]
      notices := s.notices ++ advisory.notices }
  else
    s

/--
Let a declaration name the pending block.
-/
def declare (s : State) (name : String) (kind : MemberKind) : State :=
  { s with name := some name, kind := some kind, closing := true }

/--
Take in the meaning of a line.
-/
def absorb (s : State) (options : Options) : Meaning → State
  | .startsClass name => { s.endClass with current := some { name } }
  | .inherits parent =>
    match s.current with
    | some entry => { s with current := some { entry with parent := some parent } }
    | none => { s with notices := s.notices ++ [.strayParent parent] }
  | .declaresMethod signature =>
    (s.review options signature).declare signature.name (.method signature.isStatic)
  | .declaresEvent name => s.declare name .event
  | .param param => { s with doc := { s.doc with params := s.doc.params ++ [param] } }
  | .returns value => { s with doc := { s.doc with returns := s.doc.returns ++ [value] } }
  | .deprecated text =>
    let doc := { s.doc with deprecated := some true }
    { s with doc := text.elim doc (describe doc) }
  | .comment text => { s with doc := describe s.doc text }

/--
Take in a line.
-/
def step (s : State) (options : Options) (line : List Char) : State :=
  let line := trim line
  let s := if s.closing || (line.isEmpty && s.lastBlank) then s.closeBlock else s
  let s := match Meaning.ofLine? options.style line with
    | some meaning => s.absorb options meaning
    | none => s
  { s with lastBlank := line.isEmpty }

/--
Take in several lines.
-/
def run (s : State) (options : Options) (lines : List (List Char)) : State :=
  lines.foldl (·.step options) s

@[simp]
theorem run_nil (options : Options) (s : State) : s.run options [] = s := rfl

@[simp]
theorem run_cons (options : Options) (s : State) (line : List Char) (lines : List (List Char)) :
    s.run options (line :: lines) = (s.step options line).run options lines := rfl

theorem run_append (options : Options) (s : State) (front back : List (List Char)) :
    s.run options (front ++ back) = (s.run options front).run options back := by
  simp [run]

/--
End the current class at the end of the text and drop what has not been filed.
-/
def finish (s : State) : Noted Document :=
  let s := s.endClass
  { value := { classes := s.classes, advisories := s.advisories }
    notices := s.notices ++ (s.name.map Notice.dropped).toList }

end State

/--
Extract the document that a sequence of lines holds.
-/
def ofLines (options : Options) (lines : List (List Char)) : Noted Document :=
  (State.run {} options lines).finish

end Extraction

/--
Extract the document that a text holds.
-/
def Document.ofText (options : Extraction.Options) (text : List Char) : Noted Document :=
  Extraction.ofLines options (Text.lines text)

end LuaCodex
