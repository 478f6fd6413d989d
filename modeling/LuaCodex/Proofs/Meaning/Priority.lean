import Mathlib.Data.List.Basic
import LuaCodex.Meaning.Form
import LuaCodex.Proofs.Meaning.Declaration
import LuaCodex.Proofs.Meaning.Tag

/-!
This module contains which forms a line can have at once. The main statement is that a line has at
most one form other than the one of a comment, so that the order in which forms are tried does not
matter as long as this one comes last.
-/

namespace LuaCodex

open Text

section

variable {line : List Char} {parent name : String} {signature : Signature}

theorem initial?_of_docText? {text : List Char} (h : docText? line = some text) :
    initial? (trimStart line) = some '-' := by
  unfold docText? at h
  rw [List.isPrefixOf?_eq_some_iff_append_eq] at h
  rw [← h]
  rfl

theorem isSome_docText?_iff :
    (docText? line).isSome = true ↔ ['-', '-', '-'] <+: trimStart line := by
  unfold docText?
  rw [Option.isSome_iff_exists]
  simp only [List.isPrefixOf?_eq_some_iff_append_eq]
  rfl

theorem exists_of_tagText? {marker text : List Char} (h : tagText? marker line = some text) :
    ∃ behind body, docText? line = some behind ∧ trimStart behind = '@' :: body
      ∧ ∀ c, initial? marker = some c → initial? body = some c := by
  obtain ⟨parts, rfl, -⟩ := tagText?_eq_some_iff.1 h
  refine ⟨_, _, parts.docText?_text, parts.trimStart_between_append, ?_⟩
  intro c hc
  exact initial?_of_dropKeyword? hc parts.dropKeyword?_word

theorem isSome_docText?_of_tagText? {marker text : List Char}
    (h : tagText? marker line = some text) : (docText? line).isSome = true := by
  obtain ⟨behind, body, hbehind, -, -⟩ := exists_of_tagText? h
  rw [hbehind]
  rfl

theorem initial?_of_signature? (h : signature? line = some signature) :
    initial? (trimStart line) = some 'f' := by
  obtain ⟨parts, rfl, -⟩ := MethodLine.exists_of_signature? h
  exact initial?_of_dropKeyword? rfl parts.dropKeyword?_function

theorem initial?_of_event? (h : event? line = some name) :
    initial? (trimStart line) = some 's' := by
  obtain ⟨parts, rfl, -⟩ := EventLine.exists_of_event? h
  exact initial?_of_dropKeyword? rfl parts.dropKeyword?_self

theorem initial?_of_parent? (h : parent? line = some parent) :
    initial? (trimStart line) = some 'l' ∨ initial? (trimStart line) = some 's' := by
  obtain ⟨parts, rfl, -⟩ := ParentLine.exists_of_parent? h
  rcases parts.initial?_trimStart_text with ⟨-, -, hinitial⟩ | hinitial
  · exact Or.inr hinitial
  · exact Or.inl hinitial

theorem parent?_eq_none_of_event? (h : event? line = some name) : parent? line = none := by
  by_contra hsome
  obtain ⟨parent, hparent⟩ := Option.ne_none_iff_exists'.1 hsome
  have hinitial := initial?_of_event? h
  obtain ⟨event, rfl, -⟩ := EventLine.exists_of_event? h
  obtain ⟨parts, htext, -⟩ := ParentLine.exists_of_parent? hparent
  rcases parts.initial?_trimStart_text with ⟨hkeyword, hgap, -⟩ | hlocal
  · -- The dot of an event stands where the sign of a parent has to be.
    have hself := parts.dropKeyword?_self
    have hevent : dropKeyword? ("self".toList ++ ['.']) (trimStart event.text) = some _ :=
      event.dropKeyword?_self
    rw [← htext, parts.trimStart_text, hkeyword, hgap] at hevent
    obtain ⟨front, hassignment, hfront⟩ := dropKeyword?_append hself hevent
    obtain ⟨c, rfl⟩ := List.length_eq_one_iff.1 hfront.length_eq
    have hc : c = '.' := eq_of_toLower_eq (by decide) (List.cons.inj hfront).1
    have hsign := parts.trimStart_assignment
    rw [hassignment, hc, List.singleton_append, trimStart_cons_of_not_isBlank (by decide)] at hsign
    exact absurd (List.cons.inj hsign).1 (by decide)
  · rw [htext, hinitial] at hlocal
    contradiction

end

namespace LineForm

/--
The letters with which lines of a form can start.
-/
def initials : LineForm → List Char
  | inherits => ['l', 's']
  | staticMethod | instanceMethod => ['f']
  | event => ['s']
  | startsClass | param | returns | deprecated | comment => ['-']

/--
The marker of a form of tags.
-/
def marker? : LineForm → Option (List Char)
  | startsClass => some "class".toList
  | param => some "param".toList
  | returns => some "return".toList
  | deprecated => some "deprecated".toList
  | _ => none

variable {style : ReturnStyle} {line : List Char} {form other : LineForm} {m : Meaning}

theorem exists_tagText?_of_marker? {marker : List Char} (hmarker : form.marker? = some marker)
    (h : form.meaning? style line = some m) : ∃ text, tagText? marker line = some text := by
  rw [← Option.isSome_iff_exists]
  cases form with
  | startsClass | param | returns | deprecated =>
    cases hmarker
    by_contra htext
    simp_all [meaning?, className?, param?, return?, deprecated?]
  | _ => contradiction

theorem isSome_docText?_of_marker? (hmarker : form.marker?.isSome = true)
    (h : form.meaning? style line = some m) : (docText? line).isSome = true := by
  obtain ⟨marker, hmarker⟩ := Option.isSome_iff_exists.1 hmarker
  obtain ⟨text, htext⟩ := exists_tagText?_of_marker? hmarker h
  exact isSome_docText?_of_tagText? htext

theorem isSome_comment_iff :
    (comment.meaning? style line).isSome = true ↔ (docText? line).isSome = true := by
  cases h : docText? line <;> simp [meaning?, comment?, h]

theorem exists_signature_of_filter {p : Signature → Bool}
    (h : ((signature? line).filter p).map Meaning.declaresMethod = some m) :
    ∃ signature, signature? line = some signature ∧ p signature = true := by
  obtain ⟨signature, hsignature, -⟩ := Option.map_eq_some_iff.1 h
  exact ⟨signature, Option.filter_eq_some_iff.1 hsignature⟩

theorem exists_initial (h : form.meaning? style line = some m) :
    ∃ c ∈ form.initials, initial? (trimStart line) = some c := by
  have hdoc : (docText? line).isSome = true → initial? (trimStart line) = some '-' := by
    intro hsome
    obtain ⟨text, htext⟩ := Option.isSome_iff_exists.1 hsome
    exact initial?_of_docText? htext
  cases form with
  | startsClass | param | returns | deprecated =>
    exact ⟨'-', by decide, hdoc (isSome_docText?_of_marker? rfl h)⟩
  | comment =>
    refine ⟨'-', by decide, hdoc ?_⟩
    rw [← isSome_comment_iff, h]
    rfl
  | inherits =>
    obtain ⟨parent, hparent, -⟩ := Option.map_eq_some_iff.1 h
    rcases initial?_of_parent? hparent with hinitial | hinitial
    · exact ⟨'l', by decide, hinitial⟩
    · exact ⟨'s', by decide, hinitial⟩
  | staticMethod | instanceMethod =>
    obtain ⟨signature, hsignature, -⟩ := exists_signature_of_filter h
    exact ⟨'f', by decide, initial?_of_signature? hsignature⟩
  | event =>
    obtain ⟨name, hname, -⟩ := Option.map_eq_some_iff.1 h
    exact ⟨'s', by decide, initial?_of_event? hname⟩

theorem exists_mem_initials {m' : Meaning} (h : form.meaning? style line = some m)
    (h' : other.meaning? style line = some m') : ∃ c ∈ form.initials, c ∈ other.initials := by
  obtain ⟨c, hc, hinitial⟩ := exists_initial h
  obtain ⟨c', hc', hinitial'⟩ := exists_initial h'
  rw [hinitial, Option.some_inj] at hinitial'
  subst hinitial'
  exact ⟨c, hc, hc'⟩

theorem initial?_marker? (hmarker : form.marker?.isSome = true)
    (h : form.meaning? style line = some m) :
    ∃ behind body, docText? line = some behind ∧ trimStart behind = '@' :: body
      ∧ initial? body = form.marker?.bind initial? := by
  obtain ⟨marker, hmarker⟩ := Option.isSome_iff_exists.1 hmarker
  obtain ⟨text, htext⟩ := exists_tagText?_of_marker? hmarker h
  obtain ⟨behind, body, hbehind, hbody, hinitial⟩ := exists_of_tagText? htext
  refine ⟨behind, body, hbehind, hbody, ?_⟩
  rw [hmarker, Option.bind_some]
  cases form with
  | startsClass | param | returns | deprecated =>
    cases hmarker
    exact hinitial _ rfl
  | _ => contradiction

theorem eq_of_initial?_marker? (hmarker : form.marker?.isSome = true)
    (h : form.marker?.bind initial? = other.marker?.bind initial?) : form = other := by
  cases form <;> cases other <;> simp_all [marker?, initial?]

theorem eq_of_marker? {m' : Meaning} (hmarker : form.marker?.isSome = true)
    (hmarker' : other.marker?.isSome = true) (h : form.meaning? style line = some m)
    (h' : other.meaning? style line = some m') : form = other := by
  obtain ⟨behind, body, hbehind, hbody, hinitial⟩ := initial?_marker? hmarker h
  obtain ⟨behind', body', hbehind', hbody', hinitial'⟩ := initial?_marker? hmarker' h'
  -- Both markers stand at the same place.
  rw [hbehind, Option.some_inj] at hbehind'
  subst hbehind'
  rw [hbody, List.cons_inj_right] at hbody'
  subst hbody'
  apply eq_of_initial?_marker? hmarker
  rw [← hinitial, ← hinitial']

theorem not_staticMethod_and_instanceMethod {m' : Meaning}
    (h : staticMethod.meaning? style line = some m) :
    instanceMethod.meaning? style line ≠ some m' := by
  intro h'
  obtain ⟨signature, hsignature, hstatic⟩ := exists_signature_of_filter h
  obtain ⟨signature', hsignature', hinstance⟩ := exists_signature_of_filter h'
  rw [hsignature, Option.some_inj] at hsignature'
  subst hsignature'
  rw [hstatic] at hinstance
  contradiction

theorem not_event_and_inherits {m' : Meaning} (h : event.meaning? style line = some m) :
    inherits.meaning? style line ≠ some m' := by
  obtain ⟨name, hname, -⟩ := Option.map_eq_some_iff.1 h
  simp [meaning?, parent?_eq_none_of_event? hname]

theorem eq_of_ne_comment {m' : Meaning} (hform : form ≠ comment) (hother : other ≠ comment)
    (h : form.meaning? style line = some m) (h' : other.meaning? style line = some m') :
    form = other := by
  obtain ⟨c, hc, hc'⟩ := exists_mem_initials h h'
  -- The first letter leaves the tags, the methods, or an event and a parent to be told apart.
  cases form with
  | startsClass | param | returns | deprecated =>
    have hmarker' : other.marker?.isSome = true := by
      cases other <;> simp_all [initials, marker?]
    exact eq_of_marker? rfl hmarker' h h'
  | staticMethod =>
    cases other with
    | staticMethod => rfl
    | instanceMethod => exact absurd h' (not_staticMethod_and_instanceMethod h)
    | _ => simp_all [initials]
  | instanceMethod =>
    cases other with
    | instanceMethod => rfl
    | staticMethod => exact absurd h (not_staticMethod_and_instanceMethod h')
    | _ => simp_all [initials]
  | event =>
    cases other with
    | event => rfl
    | inherits => exact absurd h' (not_event_and_inherits h)
    | _ => simp_all [initials]
  | inherits =>
    cases other with
    | inherits => rfl
    | event => exact absurd h (not_event_and_inherits h')
    | _ => simp_all [initials]
  | comment => contradiction

theorem comment_eq_none (hform : form ∈ [inherits, staticMethod, instanceMethod, event])
    (h : form.meaning? style line = some m) : comment.meaning? style line = none := by
  rw [Option.eq_none_iff_forall_ne_some]
  intro m' h'
  obtain ⟨c, hc, hc'⟩ := exists_mem_initials h h'
  cases form <;> simp_all [initials]

theorem firstMeaning?_cons (form : LineForm) (forms : List LineForm) (style : ReturnStyle)
    (line : List Char) :
    firstMeaning? (form :: forms) style line
      =
    (form.meaning? style line).or (firstMeaning? forms style line) := by
  unfold firstMeaning?
  rw [List.findSome?_cons]
  cases form.meaning? style line <;> rfl

theorem firstMeaning?_eq_of_perm {forms forms' : List LineForm} (h : forms.Perm forms')
    (hcomment : comment ∉ forms) :
    firstMeaning? forms style line = firstMeaning? forms' style line := by
  induction h with
  | nil => rfl
  | cons form _ ih =>
    rw [firstMeaning?_cons, firstMeaning?_cons, ih]
    exact fun hmem => hcomment (List.mem_cons_of_mem _ hmem)
  | swap form other forms =>
    simp only [firstMeaning?_cons]
    cases hform : form.meaning? style line with
    | none => simp
    | some m =>
      cases hother : other.meaning? style line with
      | none => simp
      | some m' =>
        -- A line that has both forms has only one of them.
        have hsame : form = other := by
          apply eq_of_ne_comment _ _ hform hother
          · rintro rfl
            simp at hcomment
          · rintro rfl
            simp at hcomment
        rw [hsame, hother] at hform
        rw [hform]
  | trans h _ ih ih' =>
    rw [ih hcomment, ih']
    exact fun hmem => hcomment (h.mem_iff.2 hmem)

theorem firstMeaning?_eq_ofLine? {forms : List LineForm} (h : forms.Perm all)
    (hlast : forms.getLast? = some comment) :
    firstMeaning? forms style line = Meaning.ofLine? style line := by
  obtain ⟨front, rfl⟩ := List.getLast?_eq_some_iff.1 hlast
  have hfront : front.Perm all.dropLast := by
    rw [← List.perm_append_right_iff [comment]]
    exact h
  have hcomment : comment ∉ front := by
    rw [hfront.mem_iff]
    decide
  have happend : all = all.dropLast ++ [comment] := rfl
  unfold Meaning.ofLine?
  rw [happend]
  unfold firstMeaning?
  rw [List.findSome?_append, List.findSome?_append]
  congr 1
  exact firstMeaning?_eq_of_perm hfront hcomment

/--
A line has at most one form other than the one of a comment. It has the form of a comment if it
starts with three dashes, so tags have it as well and declarations do not. Therefore the forms can
be tried in any order that leaves the comment to the end.
-/
theorem ofLine?_of_any_order (style : ReturnStyle) (line : List Char) :
    (∀ form other : LineForm, form ≠ comment → other ≠ comment →
        (form.meaning? style line).isSome = true → (other.meaning? style line).isSome = true →
        form = other)
      ∧ ((comment.meaning? style line).isSome = true ↔ ['-', '-', '-'] <+: trimStart line)
      ∧ (∀ form ∈ [startsClass, param, returns, deprecated],
        (form.meaning? style line).isSome = true → (comment.meaning? style line).isSome = true)
      ∧ (∀ form ∈ [inherits, staticMethod, instanceMethod, event],
        (form.meaning? style line).isSome = true → comment.meaning? style line = none)
      ∧ ∀ forms : List LineForm, forms.Perm all → forms.getLast? = some comment →
        firstMeaning? forms style line = Meaning.ofLine? style line := by
  refine ⟨?_, ?_, ?_, ?_, ?_⟩
  · intro form other hform hother h h'
    obtain ⟨m, hm⟩ := Option.isSome_iff_exists.1 h
    obtain ⟨m', hm'⟩ := Option.isSome_iff_exists.1 h'
    exact eq_of_ne_comment hform hother hm hm'
  · rw [isSome_comment_iff]
    exact isSome_docText?_iff
  · intro form hform h
    obtain ⟨m, hm⟩ := Option.isSome_iff_exists.1 h
    have hmarker : form.marker?.isSome = true := by
      cases form <;> simp_all [marker?]
    rw [isSome_comment_iff]
    exact isSome_docText?_of_marker? hmarker hm
  · intro form hform h
    obtain ⟨m, hm⟩ := Option.isSome_iff_exists.1 h
    exact comment_eq_none hform hm
  · intro forms h hlast
    exact firstMeaning?_eq_ofLine? h hlast

theorem ofLine?_of_reversed_tags :
    let tag := "  --- @Class Unit".toList
    let method := "function self.start()".toList
    (param.meaning? .named tag).isSome = false
      ∧ (comment.meaning? .named tag).isSome = true
      ∧ comment.meaning? .named method = none
      ∧ firstMeaning? [deprecated, returns, param, event, instanceMethod, staticMethod, inherits,
          startsClass, comment] .named tag
        = Meaning.ofLine? .named tag := by
  intro tag method
  have htag := ofLine?_of_any_order .named tag
  have hmethod := ofLine?_of_any_order .named method
  refine ⟨?_, ?_, ?_, ?_⟩
  · rw [← Bool.not_eq_true]
    intro hparam
    exact absurd (htag.1 startsClass param (by decide) (by decide) (by decide) hparam) (by decide)
  · exact htag.2.2.1 startsClass (by decide) (by decide)
  · exact hmethod.2.2.2.1 staticMethod (by decide) (by decide)
  · exact htag.2.2.2.2 _ (by decide) rfl

end LineForm
end LuaCodex
