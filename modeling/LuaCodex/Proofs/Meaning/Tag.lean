import Mathlib.Data.List.Basic
import LuaCodex.Meaning.Tag
import LuaCodex.Proofs.Text.Keyword

/-!
This module contains the parts of the lines that are doc tags. The main statement is that exactly
these lines hold the text of a tag.
-/

namespace LuaCodex

open Text

/--
The parts of a line with a tag.
-/
structure TagLine (marker : List Char) where
  before : List Char
  between : List Char
  word : List Char
  behind : List Char
  allBlank_before : AllBlank before
  allBlank_between : AllBlank between
  isWord_word : IsWord marker word
  isBlank_head_behind : ∀ c ∈ behind.head?, isBlank c = true

namespace TagLine

variable {marker : List Char}

/--
The line that consists of the parts.
-/
def text (parts : TagLine marker) : List Char :=
  parts.before ++ ("---".toList ++ (parts.between ++ '@' :: (parts.word ++ parts.behind)))

/--
The text of the tag.
-/
def content (parts : TagLine marker) : List Char :=
  trimStart parts.behind

end TagLine

variable {line text rest marker : List Char}

theorem docText?_append {gap : List Char} (hgap : AllBlank gap) (rest : List Char) :
    docText? (gap ++ ("---".toList ++ rest)) = some rest := by
  have hdashes : trimStart ("---".toList ++ rest) = "---".toList ++ rest :=
    trimStart_cons_of_not_isBlank (show isBlank '-' = false by decide) _
  rw [docText?, trimStart_append hgap, hdashes]
  rfl

theorem docText?_eq_some_iff :
    docText? line = some rest ↔ ∃ gap, line = gap ++ ("---".toList ++ rest) ∧ AllBlank gap := by
  constructor
  · intro h
    obtain ⟨gap, hgap, hline⟩ := exists_allBlank_append line
    rw [docText?, List.isPrefixOf?_eq_some_iff_append_eq] at h
    exact ⟨gap, hline.trans (congrArg (gap ++ ·) h.symm), hgap⟩
  · rintro ⟨gap, rfl, hgap⟩
    exact docText?_append hgap rest

theorem docText?_suffix (h : docText? line = some rest) : rest <:+ line := by
  obtain ⟨gap, rfl, -⟩ := docText?_eq_some_iff.1 h
  rw [← List.append_assoc]
  apply List.suffix_append

namespace TagLine

theorem docText?_text (parts : TagLine marker) :
    docText? parts.text = some (parts.between ++ '@' :: (parts.word ++ parts.behind)) := by
  exact docText?_append parts.allBlank_before _

theorem trimStart_between_append (parts : TagLine marker) :
    trimStart (parts.between ++ '@' :: (parts.word ++ parts.behind))
      =
    '@' :: (parts.word ++ parts.behind) := by
  rw [trimStart_append parts.allBlank_between]
  exact trimStart_cons_of_not_isBlank (by decide) _

theorem dropKeyword?_word (parts : TagLine marker) :
    dropKeyword? marker (parts.word ++ parts.behind) = some parts.behind := by
  exact dropKeyword?_eq_some_iff.2 ⟨parts.word, rfl, parts.isWord_word⟩

theorem behind_suffix (parts : TagLine marker) : parts.behind <:+ parts.text := by
  refine ⟨parts.before ++ ("---".toList ++ (parts.between ++ '@' :: parts.word)), ?_⟩
  simp only [text, List.append_assoc, List.cons_append]

theorem tagText?_text (parts : TagLine marker) :
    tagText? marker parts.text = some parts.content := by
  have hbehind := parts.isBlank_head_behind
  simp only [tagText?, docText?_text, trimStart_between_append, dropKeyword?_word,
    Option.bind_eq_bind, Option.bind_some, content]
  cases h : parts.behind with
  | nil => rfl
  | cons c behind =>
    have hc : isBlank c = true := hbehind c (by simp [h])
    simp only [hc, ↓reduceIte, trimStart_cons_of_isBlank hc]

theorem exists_of_tagText? (h : tagText? marker line = some text) :
    ∃ parts : TagLine marker, parts.text = line := by
  simp only [tagText?, Option.bind_eq_bind, Option.bind_eq_some_iff] at h
  obtain ⟨doc, hdoc, h⟩ := h
  obtain ⟨before, rfl, hbefore⟩ := docText?_eq_some_iff.1 hdoc
  split at h
  · next body hbody =>
    obtain ⟨behind, hbehind, hrest⟩ := Option.bind_eq_some_iff.1 h
    obtain ⟨word, rfl, hword⟩ := dropKeyword?_eq_some_iff.1 hbehind
    obtain ⟨between, hbetween, hsplit⟩ := exists_allBlank_append doc
    have hhead : ∀ c ∈ behind.head?, isBlank c = true := by
      intro c hc
      obtain ⟨behind, rfl⟩ := List.head?_eq_some_iff.1 hc
      simp only at hrest
      split at hrest
      · next hblank => exact hblank
      · contradiction
    refine ⟨⟨before, between, word, behind, hbefore, hbetween, hword, hhead⟩, ?_⟩
    rw [hsplit, hbody, TagLine.text]
  · contradiction

end TagLine

/--
A line holds the text of a tag if and only if it consists of the parts of such a line.
-/
theorem tagText?_eq_some_iff :
    tagText? marker line = some text
      ↔
    ∃ parts : TagLine marker, parts.text = line ∧ parts.content = text := by
  constructor
  · intro h
    obtain ⟨parts, rfl⟩ := TagLine.exists_of_tagText? h
    rw [parts.tagText?_text, Option.some_inj] at h
    exact ⟨parts, rfl, h⟩
  · rintro ⟨parts, rfl, rfl⟩
    exact parts.tagText?_text

end LuaCodex
