import Mathlib.Data.List.Basic
import LuaCodex.Meaning.Form
import LuaCodex.Proofs.Meaning.Tag

/-!
This module contains what the lines of a text contribute to a documentation block, and the fact that
the texts captured from trimmed lines are trimmed.
-/

namespace LuaCodex

open Text

namespace Meaning

/--
The text that a line adds to a description.
-/
def text? : Meaning → Option String
  | comment text => some text
  | deprecated text => text
  | _ => none

/--
The parameter that a line documents.
-/
def param? : Meaning → Option Param
  | param p => some p
  | _ => none

/--
The return value that a line documents.
-/
def return? : Meaning → Option Return
  | returns r => some r
  | _ => none

/--
Decide whether a line marks its block as deprecated.
-/
def isDeprecated : Meaning → Bool
  | deprecated _ => true
  | _ => false

/--
The text that a line captures is trimmed.
-/
def HasTrimmedText (m : Meaning) : Prop :=
  ∀ text, m.text? = some text → strip text = text

end Meaning

theorem trim_of_tagText? {marker line text : List Char} (hline : trimEnd line = line)
    (h : tagText? marker line = some text) : trim text = text := by
  obtain ⟨parts, rfl, rfl⟩ := tagText?_eq_some_iff.1 h
  exact trim_trimStart_of_suffix hline parts.behind_suffix

theorem strip_of_comment? {line : List Char} {text : String} (hline : trimEnd line = line)
    (h : comment? line = some text) : strip text = text := by
  simp only [comment?, Option.bind_eq_bind, Option.bind_eq_some_iff] at h
  obtain ⟨rest, hrest, h⟩ := h
  cases h
  rw [strip_eq, String.toList_ofList, trim_trimStart_of_suffix hline (docText?_suffix hrest)]

theorem strip_of_deprecated? {line : List Char} {text : String} (hline : trimEnd line = line)
    (h : deprecated? line = some (some text)) : strip text = text := by
  simp only [deprecated?, Option.bind_eq_bind, Option.bind_eq_some_iff] at h
  obtain ⟨tagged, htagged, h⟩ := h
  have htrim := trim_of_tagText? hline htagged
  rw [(trim_eq_self_iff.1 htrim).2] at h
  split at h
  · simp at h
  · cases h
    rw [strip_eq, String.toList_ofList, htrim]

namespace Meaning

theorem exists_form_of_ofLine? {style : ReturnStyle} {line : List Char} {m : Meaning}
    (h : ofLine? style line = some m) :
    ∃ form : LineForm, form.meaning? style line = some m := by
  obtain ⟨form, -, hform⟩ := List.exists_of_findSome?_eq_some h
  exact ⟨form, hform⟩

theorem hasTrimmedText_of_ofLine? {style : ReturnStyle} {line : List Char} {m : Meaning}
    (hline : trimEnd line = line) (h : ofLine? style line = some m) : m.HasTrimmedText := by
  obtain ⟨form, hform⟩ := exists_form_of_ofLine? h
  intro text htext
  cases form with
  | comment =>
    obtain ⟨captured, hcaptured, rfl⟩ := Option.map_eq_some_iff.1 hform
    cases htext
    exact strip_of_comment? hline hcaptured
  | deprecated =>
    obtain ⟨captured, hcaptured, rfl⟩ := Option.map_eq_some_iff.1 hform
    cases htext
    exact strip_of_deprecated? hline hcaptured
  | _ =>
    obtain ⟨captured, -, rfl⟩ := Option.map_eq_some_iff.1 hform
    contradiction

theorem ofLine?_nil (style : ReturnStyle) : ofLine? style [] = none := by
  cases style <;> decide

end Meaning
end LuaCodex
