import LuaCodex.Meaning.Declaration
import LuaCodex.Meaning.Tag

/-!
This module contains the forms that lines with a meaning can have. The first form that a line has
gives it its meaning. The lines of doc tags have the form of a comment as well, so this form comes
last.
-/

namespace LuaCodex

/--
A form of lines.
-/
inductive LineForm where
  | startsClass
  | inherits
  | staticMethod
  | instanceMethod
  | event
  | param
  | returns
  | deprecated
  | comment
deriving DecidableEq, Repr

namespace LineForm

/--
All forms, the ones to try first in front.
-/
def all : List LineForm :=
  [.startsClass, .inherits, .staticMethod, .instanceMethod, .event, .param, .returns, .deprecated,
    .comment]

/--
The name under which a form is listed.
-/
def name : LineForm → String
  | startsClass => "class"
  | inherits => "parent"
  | staticMethod => "static-method"
  | instanceMethod => "instance-method"
  | event => "event"
  | param => "param"
  | returns => "return"
  | deprecated => "deprecated"
  | comment => "comment"

/--
The meaning of a line that has a form.
-/
def meaning? (style : ReturnStyle) (line : List Char) : LineForm → Option Meaning
  | startsClass => (className? line).map .startsClass
  | inherits => (parent? line).map .inherits
  | staticMethod => ((signature? line).filter (·.isStatic)).map .declaresMethod
  | instanceMethod => ((signature? line).filter (!·.isStatic)).map .declaresMethod
  | event => (event? line).map .declaresEvent
  | param => (param? line).map .param
  | returns => (return? style line).map .returns
  | deprecated => (deprecated? line).map .deprecated
  | comment => (comment? line).map .comment

/--
The meaning of a line by the first of several forms that it has.
-/
def firstMeaning? (forms : List LineForm) (style : ReturnStyle) (line : List Char) :
    Option Meaning :=
  forms.findSome? (·.meaning? style line)

end LineForm

/--
The meaning of a line, if it has one.
-/
def Meaning.ofLine? (style : ReturnStyle) (line : List Char) : Option Meaning :=
  LineForm.firstMeaning? LineForm.all style line

end LuaCodex
