import LuaCodex.Extraction
import LuaCodex.Proofs.Meaning.Capture

/-!
This module contains what the lines of a block make of it. The description that they leave, although
it is trimmed anew with each line, consists of the captured texts, one a line and without the empty
ones.
-/

namespace LuaCodex

open Text

namespace Text

theorem strip_eq_self_iff {s : String} : strip s = s ↔ trim s.toList = s.toList := by
  rw [strip_eq, ← String.toList_inj, String.toList_ofList]

theorem strip_append_newline {s t : String} (hs : strip s = s) (ht : strip t = t) :
    strip (s ++ "\n" ++ t)
      =
    if s = "" then t else if t = "" then s else s ++ "\n" ++ t := by
  have hbreak : "\n".toList = ['\n'] := rfl
  rw [strip_eq_self_iff] at hs ht
  rw [← String.toList_inj, strip_eq, String.toList_ofList]
  simp only [String.toList_append, hbreak]
  split
  · next hempty =>
    subst hempty
    rw [trim, String.toList_empty, List.nil_append, List.singleton_append,
      trimStart_cons_of_isBlank (by decide)]
    exact ht
  · next hfront =>
    split
    · next hempty =>
      subst hempty
      have hstart : trimStart (s.toList ++ ['\n']) = s.toList ++ ['\n'] := by
        rw [trimStart_eq_self_iff]
        intro c hc
        apply trimStart_eq_self_iff.1 (trim_eq_self_iff.1 hs).1
        rw [← String.toList_eq_nil_iff] at hfront
        cases h : s.toList with
        | nil => contradiction
        | cons d rest => simpa [h] using hc
      rw [String.toList_empty, List.append_nil, trim, hstart,
        trimEnd_concat_of_isBlank (by decide)]
      exact (trim_eq_self_iff.1 hs).2
    · next hback =>
      rw [trim_append_of_ne_nil _ hs ht (by simpa using hfront) (by simpa using hback)]
      simp only [String.toList_append, hbreak]

end Text

namespace Doc

/--
The lines of a description: the captured texts that are not empty.
-/
def textsOf (ms : List Meaning) : List String :=
  (ms.filterMap Meaning.text?).filter (· ≠ "")

/--
The block that lines make up.
-/
def ofMeanings (ms : List Meaning) : Doc where
  deprecated := if ms.any Meaning.isDeprecated then some true else none
  description := "\n".intercalate (textsOf ms)
  params := ms.filterMap Meaning.param?
  returns := ms.filterMap Meaning.return?

/--
Add a line to a block.
-/
def extend (doc : Doc) : Meaning → Doc
  | .param p => { doc with params := doc.params ++ [p] }
  | .returns r => { doc with returns := doc.returns ++ [r] }
  | .deprecated text =>
    let doc := { doc with deprecated := some true }
    text.elim doc (Extraction.describe doc)
  | .comment text => Extraction.describe doc text
  | _ => doc

theorem ofMeanings_nil : ofMeanings [] = {} := by
  simp [ofMeanings, textsOf]

theorem textsOf_append (ms ms' : List Meaning) :
    textsOf (ms ++ ms') = textsOf ms ++ textsOf ms' := by
  unfold textsOf
  rw [List.filterMap_append, List.filter_append]

theorem textsOf_singleton (m : Meaning) :
    textsOf [m] = m.text?.toList.filter (· ≠ "") := by
  cases h : m.text? with
  | none => simp [textsOf, h]
  | some text => simp [textsOf, h]

theorem ne_empty_of_mem_textsOf {ms : List Meaning} {text : String} (h : text ∈ textsOf ms) :
    text ≠ "" := by
  simpa using (List.mem_filter.1 h).2

theorem strip_of_mem_textsOf {ms : List Meaning} {text : String}
    (hms : ∀ m ∈ ms, m.HasTrimmedText) (h : text ∈ textsOf ms) : strip text = text := by
  obtain ⟨m, hm, htext⟩ := List.mem_filterMap.1 (List.mem_filter.1 h).1
  exact hms m hm text htext

theorem intercalate_eq_empty {texts : List String} (h : ∀ text ∈ texts, text ≠ "")
    (hjoin : "\n".intercalate texts = "") : texts = [] := by
  cases texts with
  | nil => rfl
  | cons text texts =>
    have htext := h text List.mem_cons_self
    cases texts with
    | nil => simp_all
    | cons => simp_all

theorem strip_intercalate {texts : List String} (hne : ∀ text ∈ texts, text ≠ "")
    (h : ∀ text ∈ texts, strip text = text) :
    strip ("\n".intercalate texts) = "\n".intercalate texts := by
  induction texts with
  | nil => decide
  | cons text texts ih =>
    have htail : ∀ t ∈ texts, t ≠ "" := fun t ht => hne t (List.mem_cons_of_mem _ ht)
    have htext := h text List.mem_cons_self
    by_cases hrest : texts = []
    · rw [hrest, String.intercalate_singleton, htext]
    · specialize ih htail fun t ht => h t (List.mem_cons_of_mem _ ht)
      rw [String.intercalate_cons_of_ne_nil hrest, strip_append_newline htext ih]
      rw [if_neg (hne text List.mem_cons_self)]
      rw [if_neg fun hjoin => hrest (intercalate_eq_empty htail hjoin)]

theorem strip_intercalate_append {texts : List String} {text : String}
    (hne : ∀ t ∈ texts, t ≠ "") (h : ∀ t ∈ texts, strip t = t) (htext : strip text = text) :
    strip ("\n".intercalate texts ++ "\n" ++ text)
      =
    "\n".intercalate (texts ++ [text].filter (· ≠ "")) := by
  rw [strip_append_newline (strip_intercalate hne h) htext]
  split
  · next hjoin =>
    rw [intercalate_eq_empty hne hjoin, List.nil_append]
    by_cases hempty : text = ""
    · simp [hempty]
    · simp [hempty]
  · next hjoin =>
    have hcons : texts ≠ [] := by
      intro hnil
      apply hjoin
      rw [hnil, String.intercalate_nil]
    by_cases hempty : text = ""
    · simp [hempty]
    · rw [if_neg hempty, List.filter_cons_of_pos (by simpa using hempty), List.filter_nil]
      rw [String.intercalate_append_of_ne_nil hcons (by simp), String.intercalate_singleton]

theorem description_describe_ofMeanings {ms : List Meaning} {text : String}
    (hms : ∀ m ∈ ms, m.HasTrimmedText) (htext : strip text = text) :
    strip ((ofMeanings ms).description ++ "\n" ++ text)
      =
    "\n".intercalate (textsOf ms ++ [text].filter (· ≠ "")) := by
  apply strip_intercalate_append
  · intro t ht
    exact ne_empty_of_mem_textsOf ht
  · intro t ht
    exact strip_of_mem_textsOf hms ht
  · exact htext

theorem ofMeanings_concat (ms : List Meaning) (m : Meaning) :
    ofMeanings (ms ++ [m])
      =
    { deprecated := if m.isDeprecated then some true else (ofMeanings ms).deprecated
      description := "\n".intercalate (textsOf ms ++ m.text?.toList.filter (· ≠ ""))
      params := (ofMeanings ms).params ++ m.param?.toList
      returns := (ofMeanings ms).returns ++ m.return?.toList } := by
  have hparam : [m].filterMap Meaning.param? = m.param?.toList := by
    cases h : m.param? <;> simp [h]
  have hreturn : [m].filterMap Meaning.return? = m.return?.toList := by
    cases h : m.return? <;> simp [h]
  unfold ofMeanings
  rw [textsOf_append, textsOf_singleton, List.filterMap_append, List.filterMap_append, hparam,
    hreturn]
  cases h : m.isDeprecated <;> simp [h]

theorem extend_ofMeanings {ms : List Meaning} {m : Meaning}
    (hms : ∀ m ∈ ms, m.HasTrimmedText) (hm : m.HasTrimmedText) :
    (ofMeanings ms).extend m = ofMeanings (ms ++ [m]) := by
  have hdescription : ∀ text, m.text? = some text →
      strip ((ofMeanings ms).description ++ "\n" ++ text)
        = "\n".intercalate (textsOf ms ++ m.text?.toList.filter (· ≠ "")) := by
    intro text htext
    rw [description_describe_ofMeanings hms (hm text htext), htext, Option.toList_some]
  have hnone : m.text? = none → (ofMeanings ms).description
      = "\n".intercalate (textsOf ms ++ m.text?.toList.filter (· ≠ "")) := by
    intro htext
    rw [htext, Option.toList_none, List.filter_nil, List.append_nil]
    rfl
  rw [ofMeanings_concat]
  cases m with
  | comment text =>
    simp only [extend, Extraction.describe, hdescription text rfl]
    simp [Meaning.param?, Meaning.return?, Meaning.isDeprecated]
  | deprecated text =>
    cases text with
    | none =>
      rw [← hnone rfl]
      simp [extend, Meaning.param?, Meaning.return?, Meaning.isDeprecated]
    | some text =>
      simp only [extend, Extraction.describe, Option.elim_some, hdescription text rfl]
      simp [Meaning.param?, Meaning.return?, Meaning.isDeprecated]
  | _ =>
    rw [← hnone rfl]
    simp [extend, Meaning.param?, Meaning.return?, Meaning.isDeprecated]

end Doc
end LuaCodex
