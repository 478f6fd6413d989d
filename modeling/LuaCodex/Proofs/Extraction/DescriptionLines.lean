import LuaCodex.Proofs.Extraction.Description
import LuaCodex.Proofs.Meaning.WellFormed

/-!
This module contains the description that several texts leave when they are added one after the
other. Each addition trims the whole description anew. The main statement is that this takes nothing
from texts that have been captured from trimmed lines: they become the lines of the description.
-/

namespace LuaCodex

open Text

/--
A description consists of texts: these are joined by line breaks, the empty ones are left out, and
each of the others is a line as it stands.
-/
structure ConsistsOf (description : String) (texts : List String) : Prop where
  joined : description = "\n".intercalate (texts.filter (· ≠ ""))
  lines : texts.filter (· ≠ "") ≠ [] →
    Text.lines description.toList = (texts.filter (· ≠ "")).map String.toList

/--
A text has been captured from a line, either as a comment or as the reason of a deprecation.
-/
def Captures (line : List Char) (text : String) : Prop :=
  comment? line = some text ∨ deprecated? line = some (some text)

variable {line : List Char} {text : String} {texts : List String}

theorem Text.lines_intercalate_newline (hne : texts ≠ []) (h : ∀ t ∈ texts, IsSingleLine t) :
    lines ("\n".intercalate texts).toList = texts.map String.toList := by
  have hbreak : "\n".toList = ['\n'] := rfl
  rw [String.toList_intercalate, hbreak, lines_intercalate (by simpa using hne)]
  apply flatMap_lines_of_notMem
  intro piece hpiece
  obtain ⟨text, htext, rfl⟩ := List.mem_map.1 hpiece
  exact h text htext

theorem Captures.strip_eq (h : Captures line text) (hline : trim line = line) :
    strip text = text := by
  have hend : trimEnd line = line := (trim_eq_self_iff.1 hline).2
  rcases h with h | h
  · exact strip_of_comment? hend h
  · exact strip_of_deprecated? hend h

theorem Captures.isSingleLine (h : Captures line text) (hline : '\n' ∉ line) :
    IsSingleLine text := by
  rcases h with h | h
  · exact isSingleLine_of_comment? hline h
  · exact isSingleLine_of_deprecated? hline h

theorem Meaning.captures_of_ofLine? {style : ReturnStyle} {m : Meaning}
    (h : ofLine? style line = some m) (htext : m.text? = some text) : Captures line text := by
  obtain ⟨form, hform⟩ := exists_form_of_ofLine? h
  cases form with
  | comment =>
    obtain ⟨captured, hcaptured, rfl⟩ := Option.map_eq_some_iff.1 hform
    cases htext
    exact Or.inl hcaptured
  | deprecated =>
    obtain ⟨captured, hcaptured, rfl⟩ := Option.map_eq_some_iff.1 hform
    cases htext
    exact Or.inr hcaptured
  | _ =>
    obtain ⟨captured, -, rfl⟩ := Option.map_eq_some_iff.1 hform
    contradiction

namespace Extraction

/--
Texts that are trimmed are added to a description of such texts without a loss.
-/
theorem foldl_describe {front : List String} {doc : Doc} (hne : ∀ t ∈ front, t ≠ "")
    (hfront : ∀ t ∈ front, strip t = t) (htexts : ∀ t ∈ texts, strip t = t)
    (hdoc : doc.description = "\n".intercalate front) :
    texts.foldl describe doc
      =
    { doc with description := "\n".intercalate (front ++ texts.filter (· ≠ "")) } := by
  induction texts generalizing front doc with
  | nil => simp [← hdoc]
  | cons text texts ih =>
    obtain ⟨htext, htexts⟩ := List.forall_mem_cons.1 htexts
    have hstep : describe doc text
        = { doc with description := "\n".intercalate (front ++ [text].filter (· ≠ "")) } := by
      rw [describe, hdoc, Doc.strip_intercalate_append hne hfront htext]
    have hmem : ∀ t ∈ front ++ [text].filter (· ≠ ""), t ≠ "" ∧ strip t = t := by
      intro t ht
      rcases List.mem_append.1 ht with ht | ht
      · exact ⟨hne t ht, hfront t ht⟩
      · obtain ⟨hmem, hnonempty⟩ := List.mem_filter.1 ht
        obtain rfl := List.mem_singleton.1 hmem
        exact ⟨by simpa using hnonempty, htext⟩
    rw [List.foldl_cons, hstep,
      ih (fun t ht => (hmem t ht).1) (fun t ht => (hmem t ht).2) htexts rfl,
      List.append_assoc, ← List.filter_append, List.singleton_append]

theorem foldl_describe_of_empty {doc : Doc} (htexts : ∀ t ∈ texts, strip t = t)
    (hdoc : doc.description = "") :
    texts.foldl describe doc
      =
    { doc with description := "\n".intercalate (texts.filter (· ≠ "")) } := by
  have hfront : doc.description = "\n".intercalate [] := by rw [hdoc, String.intercalate_nil]
  rw [foldl_describe (by simp) (by simp) htexts hfront, List.nil_append]

theorem consistsOf_foldl_describe_of_captures {lines : List (List Char)}
    (htrim : ∀ line ∈ lines, trim line = line) (hbreak : ∀ line ∈ lines, '\n' ∉ line)
    (h : ∀ text ∈ texts, ∃ line ∈ lines, Captures line text) :
    ConsistsOf (texts.foldl describe {}).description texts := by
  have hstrip : ∀ t ∈ texts, strip t = t := by
    intro t ht
    obtain ⟨line, hline, hcaptures⟩ := h t ht
    exact hcaptures.strip_eq (htrim line hline)
  have hsingle : ∀ t ∈ texts.filter (· ≠ ""), IsSingleLine t := by
    intro t ht
    obtain ⟨line, hline, hcaptures⟩ := h t (List.mem_filter.1 ht).1
    exact hcaptures.isSingleLine (hbreak line hline)
  rw [foldl_describe_of_empty hstrip rfl]
  exact ⟨rfl, fun hne => lines_intercalate_newline hne hsingle⟩

/--
The texts that trimmed lines add to an empty description become its lines, in their order and
without the empty ones. This holds for the texts that the meanings of the lines have, and for any
others that can be captured from the lines.
-/
theorem consistsOf_foldl_describe {lines : List (List Char)}
    (htrim : ∀ line ∈ lines, trim line = line) (hbreak : ∀ line ∈ lines, '\n' ∉ line) :
    (∀ style,
      let texts := (lines.filterMap (Meaning.ofLine? style)).filterMap Meaning.text?
      ConsistsOf (texts.foldl describe {}).description texts)
      ∧ ∀ texts : List String, (∀ text ∈ texts, ∃ line ∈ lines, Captures line text) →
        ConsistsOf (texts.foldl describe {}).description texts := by
  constructor
  · intro style texts
    apply consistsOf_foldl_describe_of_captures htrim hbreak
    intro text htext
    obtain ⟨m, hm, hcaptured⟩ := List.mem_filterMap.1 htext
    obtain ⟨line, hline, hmeaning⟩ := List.mem_filterMap.1 hm
    exact ⟨line, hline, Meaning.captures_of_ofLine? hmeaning hcaptured⟩
  · intro texts h
    exact consistsOf_foldl_describe_of_captures htrim hbreak h

theorem consistsOf_foldl_describe_of_six_lines :
    let lines := ["--- Start it.", "---", "---@param x number", "-- @deprecated",
      "--- @deprecated  Use run.", "---  Twice:  x "].map fun line => trim line.toList
    let texts := ["Start it.", "", "Use run.", "Twice:  x"]
    let description := "Start it.\nUse run.\nTwice:  x"
    (∀ line ∈ lines, trim line = line) ∧ (∀ line ∈ lines, '\n' ∉ line)
      ∧ (lines.filterMap (Meaning.ofLine? .named)).filterMap Meaning.text? = texts
      ∧ (texts.foldl describe {}).description = description ∧ ConsistsOf description texts := by
  intro lines texts description
  have htrim : ∀ line ∈ lines, trim line = line := by decide
  have hbreak : ∀ line ∈ lines, '\n' ∉ line := by decide
  have htexts : (lines.filterMap (Meaning.ofLine? .named)).filterMap Meaning.text? = texts := by
    decide
  have h := (consistsOf_foldl_describe htrim hbreak).1 .named
  rw [htexts] at h
  have hdescription : (texts.foldl describe {}).description = description := by
    rw [h.joined]
    decide
  exact ⟨htrim, hbreak, htexts, hdescription, hdescription ▸ h⟩

end Extraction
end LuaCodex
