import LuaCodex.Proofs.Meaning.Capture

/-!
This module contains the relation between the two ways to divide the text behind a `@return` tag. On
a trimmed line, what is read with `folded` is what is read with `named` with its name moved into the
description.
-/

namespace LuaCodex

open Text

/--
Move the name of a return value to the front of its description.
-/
def Return.fold (r : Return) : Return :=
  match r.name with
  | none => r
  | some name =>
    { type := r.type
      name := none
      description := if r.description = "" then name else name ++ " " ++ r.description }

/--
Move the name of a return value to the front of its description, if a line documents one.
-/
def Meaning.foldReturn : Meaning → Meaning
  | returns r => returns r.fold
  | m => m

namespace Text

@[simp]
theorem firstField_nil : firstField [] = ([], none) := rfl

theorem firstField_of_notMem {s : List Char} (h : ' ' ∉ s) : firstField s = (s, none) := by
  rw [firstField, cutAt?_eq_none_iff.2 h]

theorem firstField_append {front : List Char} (h : ' ' ∉ front) (back : List Char) :
    firstField (front ++ ' ' :: back) = (front, some back) := by
  rw [firstField, cutAt?_append h]

theorem notMem_or_eq_append (s : List Char) :
    ' ' ∉ s ∨ ∃ front back, s = front ++ ' ' :: back ∧ ' ' ∉ front := by
  cases h : cutAt? ' ' s with
  | none => exact Or.inl (cutAt?_eq_none_iff.1 h)
  | some parts => exact Or.inr ⟨parts.1, parts.2, cutAt?_eq_some_iff.1 h⟩

end Text

theorem Return.fold_ofText_named {s : List Char} (hs : trimEnd s = s) :
    (ofText .named s).fold = ofText .folded s := by
  rcases notMem_or_eq_append s with hspace | ⟨type, rest, rfl, htype⟩
  · simp [ofText, firstField_of_notMem hspace, fold]
  · rcases notMem_or_eq_append rest with hspace | ⟨name, description, rfl, hname⟩
    · simp [ofText, firstField_append htype, firstField_of_notMem hspace, fold]
    · have hdescription : description ≠ [] := by
        -- A trimmed text does not end in the space behind the name.
        rintro rfl
        rw [← List.cons_append, ← List.append_assoc] at hs
        have := trimEnd_eq_self_iff.1 hs ' ' List.getLast?_concat
        contradiction
      simp [ofText, firstField_append htype, firstField_append hname, fold, hdescription,
        String.ofList_append, String.ofList_cons, String.append_assoc]

theorem return?_folded {line : List Char} (hline : trimEnd line = line) :
    return? .folded line = (return? .named line).map Return.fold := by
  unfold return?
  cases h : tagText? "return".toList line with
  | none => rfl
  | some text =>
    have htext := (trim_eq_self_iff.1 (trim_of_tagText? hline h)).2
    simp [Return.fold_ofText_named htext]

theorem LineForm.meaning?_folded {line : List Char} (hline : trimEnd line = line)
    (form : LineForm) :
    form.meaning? .folded line = (form.meaning? .named line).map Meaning.foldReturn := by
  cases form with
  | returns =>
    simp [meaning?, return?_folded hline, Option.map_map, Function.comp_def, Meaning.foldReturn]
  | _ => simp [meaning?, Option.map_map, Function.comp_def, Meaning.foldReturn]

theorem Meaning.ofLine?_folded {line : List Char} (hline : trimEnd line = line) :
    ofLine? .folded line = (ofLine? .named line).map foldReturn := by
  unfold ofLine? LineForm.firstMeaning?
  rw [List.map_findSome?]
  congr 1
  funext form
  exact LineForm.meaning?_folded hline form

end LuaCodex
