import LuaCodex.Proofs.Document.WellFormed
import LuaCodex.Proofs.Meaning.Declaration
import LuaCodex.Proofs.Meaning.ReturnStyle
import LuaCodex.Proofs.Text.Lines

/-!
This module contains what the names and texts look like that are captured from a single line: none
has a line break, and each is free of the sign in front of which it ends.
-/

namespace LuaCodex

open Text

/--
What a line says is made of names and texts of a single line.
-/
def Meaning.IsWellFormed : Meaning → Prop
  | startsClass name => strip name = name ∧ IsSingleLine name
  | inherits parent => IsNameBefore '(' parent
  | declaresMethod signature =>
    IsNameBefore '(' signature.name ∧ ∀ arg ∈ signature.args, IsNameBefore ',' arg
  | declaresEvent name => IsNameBefore '=' name
  | param p => p.IsWellFormed
  | returns r => r.IsWellFormed
  | deprecated text => ∀ t, text = some t → IsSingleLine t
  | comment text => IsSingleLine text

variable {line s text : List Char} {name : String}

theorem isSingleLine_ofList (h : '\n' ∉ s) : IsSingleLine (String.ofList s) := by
  simpa [IsSingleLine] using h

theorem firstField_subset (s : List Char) :
    (firstField s).1 ⊆ s ∧ (firstField s).2.getD [] ⊆ s := by
  rcases notMem_or_eq_append s with hspace | ⟨front, back, rfl, hspace⟩
  · simp [firstField_of_notMem hspace]
  · simp [firstField_append hspace]

theorem space_notMem_firstField (s : List Char) : ' ' ∉ (firstField s).1 := by
  rcases notMem_or_eq_append s with hspace | ⟨front, back, rfl, hspace⟩
  · simpa [firstField_of_notMem hspace] using hspace
  · simpa [firstField_append hspace] using hspace

theorem isField_firstField (h : '\n' ∉ s) : IsField (String.ofList (firstField s).1) := by
  constructor
  · simpa using space_notMem_firstField s
  · apply isSingleLine_ofList
    intro hmem
    exact h ((firstField_subset s).1 hmem)

theorem notMem_firstField_rest (h : '\n' ∉ s) : '\n' ∉ (firstField s).2.getD [] := by
  intro hmem
  exact h ((firstField_subset s).2 hmem)

theorem Param.isWellFormed_ofText (h : '\n' ∉ s) : (Param.ofText s).IsWellFormed := by
  have hrest := notMem_firstField_rest h
  refine ⟨isField_firstField h, isField_firstField hrest, ?_⟩
  exact isSingleLine_ofList (notMem_firstField_rest hrest)

theorem Return.isWellFormed_ofText (style : ReturnStyle) (h : '\n' ∉ s) :
    (Return.ofText style s).IsWellFormed := by
  have hrest := notMem_firstField_rest h
  cases style with
  | named =>
    refine ⟨isField_firstField h, ?_, ?_⟩
    · intro name hname
      obtain ⟨-, -, rfl⟩ := Option.map_eq_some_iff.1 hname
      exact isField_firstField hrest
    · exact isSingleLine_ofList (notMem_firstField_rest hrest)
  | folded =>
    refine ⟨isField_firstField h, ?_, ?_⟩
    · intro name hname
      contradiction
    · exact isSingleLine_ofList hrest

theorem isNameBefore_trim {sign : Char} (hsign : sign ∉ s) (hline : '\n' ∉ s) (hne : trim s ≠ []) :
    IsNameBefore sign (String.ofList (trim s)) := by
  refine ⟨?_, ?_, ?_, ?_⟩
  · simpa using hne
  · rw [strip_eq, String.toList_ofList, trim_trim]
  · rw [String.toList_ofList]
    exact fun hmem => hsign (trim_subset s hmem)
  · exact isSingleLine_ofList fun hmem => hline (trim_subset s hmem)

theorem isNameBefore_of_mem_argumentNames (h : '\n' ∉ s) (hname : name ∈ argumentNames s) :
    IsNameBefore ',' name := by
  obtain ⟨piece, hpiece, hname⟩ := List.mem_filterMap.1 hname
  obtain ⟨hcomma, hsubset⟩ := of_mem_splitOn hpiece
  obtain ⟨hne, rfl⟩ := trimmedName?_eq_some_iff.1 hname
  exact isNameBefore_trim hcomma (fun hmem => h (hsubset hmem)) hne

theorem notMem_of_tagText? {marker : List Char} (hline : '\n' ∉ line)
    (h : tagText? marker line = some text) : '\n' ∉ text := by
  obtain ⟨parts, rfl, rfl⟩ := tagText?_eq_some_iff.1 h
  intro hmem
  exact hline (parts.behind_suffix.subset (trimStart_subset _ hmem))

theorem notMem_of_docText? (hline : '\n' ∉ line) (h : docText? line = some text) :
    '\n' ∉ text := by
  intro hmem
  exact hline ((docText?_suffix h).subset hmem)

theorem isWellFormed_of_className? (hline : '\n' ∉ line) (h : className? line = some name) :
    strip name = name ∧ IsSingleLine name := by
  simp only [className?, Option.bind_eq_bind, Option.bind_eq_some_iff] at h
  obtain ⟨text, htext, h⟩ := h
  cases h
  constructor
  · rw [strip_eq, String.toList_ofList, trim_trim]
  · apply isSingleLine_ofList
    intro hmem
    exact notMem_of_tagText? hline htext (trim_subset text hmem)

theorem isNameBefore_of_parent? (hline : '\n' ∉ line) (h : parent? line = some name) :
    IsNameBefore '(' name := by
  obtain ⟨parts, rfl, rfl⟩ := ParentLine.exists_of_parent? h
  simp only [ParentLine.text, List.mem_append, List.mem_cons, not_or] at hline
  exact isNameBefore_trim parts.notMem_expr (by tauto) parts.trim_expr_ne

theorem isWellFormed_of_signature? {signature : Signature} (hline : '\n' ∉ line)
    (h : signature? line = some signature) : (Meaning.declaresMethod signature).IsWellFormed := by
  obtain ⟨parts, rfl, rfl⟩ := MethodLine.exists_of_signature? h
  simp only [MethodLine.text, List.mem_append, List.mem_cons, not_or] at hline
  refine ⟨isNameBefore_trim parts.notMem_name (by tauto) parts.trim_name_ne, ?_⟩
  intro arg harg
  rw [MethodLine.signature, ← argumentNames_eq] at harg
  exact isNameBefore_of_mem_argumentNames (by tauto) harg

theorem isNameBefore_of_event? (hline : '\n' ∉ line) (h : event? line = some name) :
    IsNameBefore '=' name := by
  obtain ⟨parts, rfl, rfl⟩ := EventLine.exists_of_event? h
  simp only [EventLine.text, List.mem_append, List.mem_cons, not_or] at hline
  exact isNameBefore_trim parts.notMem_name (by tauto) parts.trim_name_ne

theorem isWellFormed_of_param? {p : Param} (hline : '\n' ∉ line) (h : param? line = some p) :
    p.IsWellFormed := by
  simp only [param?, Option.bind_eq_bind, Option.bind_eq_some_iff] at h
  obtain ⟨text, htext, h⟩ := h
  cases h
  exact Param.isWellFormed_ofText (notMem_of_tagText? hline htext)

theorem isWellFormed_of_return? {style : ReturnStyle} {r : Return} (hline : '\n' ∉ line)
    (h : return? style line = some r) : r.IsWellFormed := by
  simp only [return?, Option.bind_eq_bind, Option.bind_eq_some_iff] at h
  obtain ⟨text, htext, h⟩ := h
  cases h
  exact Return.isWellFormed_ofText style (notMem_of_tagText? hline htext)

theorem isSingleLine_of_deprecated? {description : String} (hline : '\n' ∉ line)
    (h : deprecated? line = some (some description)) : IsSingleLine description := by
  simp only [deprecated?, Option.bind_eq_bind, Option.bind_eq_some_iff] at h
  obtain ⟨text, htext, h⟩ := h
  have hfront := trimEnd_prefix text
  split at h
  · simp at h
  · cases h
    apply isSingleLine_ofList
    intro hmem
    exact notMem_of_tagText? hline htext (hfront.subset hmem)

theorem isSingleLine_of_comment? {description : String} (hline : '\n' ∉ line)
    (h : comment? line = some description) : IsSingleLine description := by
  simp only [comment?, Option.bind_eq_bind, Option.bind_eq_some_iff] at h
  obtain ⟨text, htext, h⟩ := h
  cases h
  apply isSingleLine_ofList
  intro hmem
  exact notMem_of_docText? hline htext (trimStart_subset text hmem)

theorem Meaning.isWellFormed_of_ofLine? {style : ReturnStyle} {m : Meaning}
    (hline : '\n' ∉ line) (h : ofLine? style line = some m) : m.IsWellFormed := by
  obtain ⟨form, hform⟩ := exists_form_of_ofLine? h
  cases form with
  | staticMethod | instanceMethod =>
    obtain ⟨signature, hsignature, rfl⟩ := Option.map_eq_some_iff.1 hform
    exact isWellFormed_of_signature? hline (Option.filter_eq_some_iff.1 hsignature).1
  | startsClass =>
    obtain ⟨name, hname, rfl⟩ := Option.map_eq_some_iff.1 hform
    exact isWellFormed_of_className? hline hname
  | inherits =>
    obtain ⟨parent, hparent, rfl⟩ := Option.map_eq_some_iff.1 hform
    exact isNameBefore_of_parent? hline hparent
  | event =>
    obtain ⟨name, hname, rfl⟩ := Option.map_eq_some_iff.1 hform
    exact isNameBefore_of_event? hline hname
  | param =>
    obtain ⟨p, hp, rfl⟩ := Option.map_eq_some_iff.1 hform
    exact isWellFormed_of_param? hline hp
  | returns =>
    obtain ⟨r, hr, rfl⟩ := Option.map_eq_some_iff.1 hform
    exact isWellFormed_of_return? hline hr
  | deprecated =>
    obtain ⟨text, htext, rfl⟩ := Option.map_eq_some_iff.1 hform
    intro description hdescription
    rw [hdescription] at htext
    exact isSingleLine_of_deprecated? hline htext
  | comment =>
    obtain ⟨text, htext, rfl⟩ := Option.map_eq_some_iff.1 hform
    exact isSingleLine_of_comment? hline htext

end LuaCodex
