import LuaCodex.Proofs.Meaning.ReturnStyle

/-!
This module contains how the text of a doc tag is divided into fields. The main statement is that
exactly the lines with a tag are recognized, that no part of the text is lost when it is divided,
and that a tag put together from its fields is divided into these fields again.
-/

namespace LuaCodex

open Text

/--
A function recognizes the lines with some tag, and what it captures is related to the text of the
tag.
-/
structure Recognizes {α : Type} (marker : List Char) (read : List Char → Option α)
    (Captures : List Char → α → Prop) : Prop where
  isSome_iff : ∀ line, (read line).isSome = true ↔ ∃ parts : TagLine marker, parts.text = line
  captures : ∀ parts : TagLine marker, ∃ x, read parts.text = some x ∧ Captures parts.content x

/--
A text is divided at its first two spaces. The parts for which there is no space are empty.
-/
structure DividesAtSpaces (s first second third : List Char) : Prop where
  notMem_first : ' ' ∉ first
  notMem_second : ' ' ∉ second
  of_zero : s.count ' ' = 0 → s = first ∧ second = [] ∧ third = []
  of_one : s.count ' ' = 1 → s = first ++ ' ' :: second ∧ third = []
  of_more : 2 ≤ s.count ' ' → s = first ++ ' ' :: (second ++ ' ' :: third)

/--
A text is the name, the type and the description of a parameter.
-/
def Param.Divides (s : List Char) (p : Param) : Prop :=
  DividesAtSpaces s p.name.toList p.type.toList p.description.toList

/--
A text is the type, the name and the description of a return value. There is no name only if there
is no space.
-/
def Return.DividesNamed (s : List Char) (r : Return) : Prop :=
  DividesAtSpaces s r.type.toList (r.name.getD "").toList r.description.toList
    ∧ (r.name = none ↔ ' ' ∉ s)

/--
A text is the type and the description of a return value without a name.
-/
def Return.DividesFolded (s : List Char) (r : Return) : Prop :=
  r.name = none ∧ ' ' ∉ r.type.toList
    ∧ (s = r.type.toList ∧ r.description = ""
      ∨ s = r.type.toList ++ ' ' :: r.description.toList)

/--
A text can be the first field of a tag.
-/
structure IsFirstField (s : String) : Prop where
  ne_empty : s ≠ ""
  notMem_space : ' ' ∉ s.toList
  isBlank_head : ∀ c ∈ s.toList.head?, isBlank c = false

variable {rest marker : List Char}

theorem recognizes_of_bind {α : Type} {read : List Char → Option α} {f : List Char → α}
    {Captures : List Char → α → Prop}
    (hread : ∀ line, read line = (tagText? marker line).bind (some ∘ f))
    (h : ∀ content, Captures content (f content)) : Recognizes marker read Captures where
  isSome_iff line := by
    rw [hread, ← Option.map_eq_bind, Option.isSome_map]
    constructor
    · intro hsome
      obtain ⟨text, htext⟩ := Option.isSome_iff_exists.1 hsome
      exact TagLine.exists_of_tagText? htext
    · rintro ⟨parts, rfl⟩
      rw [parts.tagText?_text]
      rfl
  captures parts := ⟨f parts.content, by rw [hread, parts.tagText?_text]; rfl, h parts.content⟩

theorem dividesAtSpaces_firstField (s : List Char) :
    DividesAtSpaces s (firstField s).1 (firstField ((firstField s).2.getD [])).1
      ((firstField ((firstField s).2.getD [])).2.getD []) := by
  rcases notMem_or_eq_append s with hspace | ⟨first, rest, rfl, hfirst⟩
  · have hcount := List.count_eq_zero.2 hspace
    simp only [firstField_of_notMem hspace, Option.getD_none, firstField_nil]
    exact ⟨hspace, by simp, by simp, by omega, by omega⟩
  have hcount : (first ++ ' ' :: rest).count ' ' = rest.count ' ' + 1 := by
    simp [List.count_eq_zero.2 hfirst]
  rcases notMem_or_eq_append rest with hspace | ⟨second, third, rfl, hsecond⟩
  · have hcount' := List.count_eq_zero.2 hspace
    simp only [firstField_append hfirst, firstField_of_notMem hspace, Option.getD_some,
      Option.getD_none]
    exact ⟨hfirst, hspace, by omega, by simp, by omega⟩
  · have hcount' : (second ++ ' ' :: third).count ' ' = third.count ' ' + 1 := by
      simp [List.count_eq_zero.2 hsecond]
    simp only [firstField_append hfirst, firstField_append hsecond, Option.getD_some]
    exact ⟨hfirst, hsecond, by omega, by omega, by simp⟩

theorem Param.divides_ofText (s : List Char) : Param.Divides s (ofText s) := by
  simpa [Divides, ofText] using dividesAtSpaces_firstField s

theorem Return.dividesNamed_ofText (s : List Char) : DividesNamed s (ofText .named s) := by
  have hdivides := dividesAtSpaces_firstField s
  rcases notMem_or_eq_append s with hspace | ⟨type, rest, rfl, htype⟩
  · rw [firstField_of_notMem hspace, Option.getD_none, firstField_nil] at hdivides
    simpa [DividesNamed, ofText, firstField_of_notMem hspace, hspace] using hdivides
  · rw [firstField_append htype, Option.getD_some] at hdivides
    simpa [DividesNamed, ofText, firstField_append htype] using hdivides

theorem Return.dividesFolded_ofText (s : List Char) : DividesFolded s (ofText .folded s) := by
  rcases notMem_or_eq_append s with hspace | ⟨type, description, rfl, htype⟩
  · simp [DividesFolded, ofText, firstField_of_notMem hspace, hspace]
  · simp [DividesFolded, ofText, firstField_append htype, htype]

theorem TagLine.content_eq {parts : TagLine marker} {gap : List Char} {first : String}
    (hgap : AllBlank gap) (hfirst : IsFirstField first)
    (h : parts.behind = gap ++ (first.toList ++ rest)) : parts.content = first.toList ++ rest := by
  rw [content, h, trimStart_append hgap, trimStart_eq_self_iff]
  intro c hc
  apply hfirst.isBlank_head
  cases htext : first.toList with
  | nil => exact absurd (String.toList_eq_nil_iff.1 htext) hfirst.ne_empty
  | cons d text => simpa [htext] using hc

theorem Param.ofText_append {name type : String} (hname : ' ' ∉ name.toList)
    (htype : ' ' ∉ type.toList) (description : String) :
    ofText (name.toList ++ ' ' :: (type.toList ++ ' ' :: description.toList))
      =
    { name, type, description } := by
  simp [ofText, firstField_append hname, firstField_append htype]

theorem Return.ofText_named_append {type name : String} (htype : ' ' ∉ type.toList)
    (hname : ' ' ∉ name.toList) (description : String) :
    ofText .named (type.toList ++ ' ' :: (name.toList ++ ' ' :: description.toList))
      =
    { type, name := some name, description } := by
  simp [ofText, firstField_append htype, firstField_append hname]

theorem Return.ofText_folded_append {type : String} (htype : ' ' ∉ type.toList)
    (description : String) :
    ofText .folded (type.toList ++ ' ' :: description.toList) = { type, description } := by
  simp [ofText, firstField_append htype]

/--
Exactly the lines with a doc tag are recognized as such, and the text of the tag is divided without
a loss. The fields of a tag are captured as they have been written.
-/
theorem tags_lossless :
    Recognizes "class".toList className? (fun content name => name = String.ofList (trim content))
      ∧ Recognizes "deprecated".toList deprecated? (fun content text =>
          text = if trimEnd content = [] then none else some (String.ofList (trimEnd content)))
      ∧ Recognizes "param".toList param? Param.Divides
      ∧ Recognizes "return".toList (return? .named) Return.DividesNamed
      ∧ Recognizes "return".toList (return? .folded) Return.DividesFolded
      ∧ (∀ (parts : TagLine "param".toList) (gap : List Char) (name type description : String),
          AllBlank gap → IsFirstField name → ' ' ∉ type.toList →
          parts.behind
            = gap ++ (name.toList ++ ' ' :: (type.toList ++ ' ' :: description.toList)) →
          param? parts.text = some { name, type, description })
      ∧ (∀ (parts : TagLine "return".toList) (gap : List Char) (type name description : String),
          AllBlank gap → IsFirstField type → ' ' ∉ name.toList →
          parts.behind
            = gap ++ (type.toList ++ ' ' :: (name.toList ++ ' ' :: description.toList)) →
          return? .named parts.text = some { type, name := some name, description })
      ∧ (∀ (parts : TagLine "return".toList) (gap : List Char) (type description : String),
          AllBlank gap → IsFirstField type →
          parts.behind = gap ++ (type.toList ++ ' ' :: description.toList) →
          return? .folded parts.text = some { type, description }) := by
  refine ⟨?_, ?_, ?_, ?_, ?_, ?_, ?_, ?_⟩
  · exact recognizes_of_bind (fun _ => rfl) fun _ => rfl
  · refine recognizes_of_bind (fun line => ?_) fun _ => rfl
    unfold deprecated?
    cases tagText? "deprecated".toList line with
    | none => rfl
    | some content => cases h : trimEnd content <;> simp [h]
  · exact recognizes_of_bind (fun _ => rfl) Param.divides_ofText
  · exact recognizes_of_bind (fun _ => rfl) Return.dividesNamed_ofText
  · exact recognizes_of_bind (fun _ => rfl) Return.dividesFolded_ofText
  · intro parts gap name type description hgap hname htype h
    rw [param?, parts.tagText?_text, TagLine.content_eq hgap hname h]
    exact congrArg some (Param.ofText_append hname.notMem_space htype description)
  · intro parts gap type name description hgap htype hname h
    rw [return?, parts.tagText?_text, TagLine.content_eq hgap htype h]
    exact congrArg some (Return.ofText_named_append htype.notMem_space hname description)
  · intro parts gap type description hgap htype h
    rw [return?, parts.tagText?_text, TagLine.content_eq hgap htype h]
    exact congrArg some (Return.ofText_folded_append htype.notMem_space description)

theorem tags_lossless_of_width :
    ∃ parts : TagLine "param".toList,
      parts.text = " --- @Param \tx number the  width".toList
        ∧ AllBlank " \t".toList ∧ IsFirstField "x" ∧ ' ' ∉ "number".toList
        ∧ parts.behind = " \t".toList ++ ("x".toList ++ ' ' ::
            ("number".toList ++ ' ' :: "the  width".toList))
        ∧ param? parts.text
            = some { name := "x", type := "number", description := "the  width" } := by
  let parts : TagLine "param".toList :=
    ⟨" ".toList, " ".toList, "Param".toList, " \tx number the  width".toList, by decide, by decide,
      by decide, by rintro _ ⟨⟩; decide⟩
  have hname : IsFirstField "x" := ⟨by decide, by decide, by rintro _ ⟨⟩; decide⟩
  have hparam := tags_lossless.2.2.2.2.2.1 parts " \t".toList "x" "number" "the  width" (by decide)
    hname (by decide) rfl
  exact ⟨parts, rfl, by decide, hname, by decide, rfl, hparam⟩

end LuaCodex
