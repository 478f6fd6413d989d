import LuaCodex.Proofs.Extraction.Join

/-!
This module contains what becomes of a document when its text grows. No advisory and no class is
lost, and a class that has ended stays as it is unless a line starts it anew. The main statement is
that this holds for the documents of any two beginnings of a text.
-/

namespace LuaCodex
namespace Extraction

open Text

namespace State

/--
A class has ended, and the current class is another one.
-/
structure HasEnded (s : State) (name : String) (entry : ApiClass) : Prop where
  found : s.classes[name]? = some entry
  current : s.current.map (·.name) ≠ some name

variable {s : State} {options : Options} {line : List Char} {lines : List (List Char)}
variable {m : Meaning} {name : String} {entry : ApiClass}

theorem name_addMember (entry : ApiClass) (doc : Doc) (name : String) (kind : MemberKind) :
    (addMember entry doc name kind).name = entry.name := by
  cases kind <;> rfl

theorem name_closeBlock_current : s.closeBlock.current.map (·.name) = s.current.map (·.name) := by
  unfold closeBlock
  cases hcurrent : s.current with
  | none => simp
  | some entry =>
    cases s.name with
    | none => simp
    | some name => cases s.kind <;> simp [name_addMember]

theorem absorb_cases (s : State) (options : Options) (m : Meaning) :
    (∃ name, m = .startsClass name)
      ∨ (s.absorb options m).classes = s.classes
        ∧ (s.absorb options m).current.map (·.name) = s.current.map (·.name) := by
  by_cases hstart : ∃ name, m = .startsClass name
  · exact Or.inl hstart
  · have hnone : ∀ name, m ≠ .startsClass name := by
      intro name heq
      exact hstart ⟨name, heq⟩
    refine Or.inr ⟨absorb_classes_of_ne hnone, ?_⟩
    rw [absorb_current_of_ne hnone, Option.map_map]
    rfl

theorem mem_table_iff :
    name ∈ s.table ↔ s.current.map (·.name) = some name ∨ name ∈ s.classes := by
  simp only [Std.ExtTreeMap.mem_iff_isSome_getElem?, getElem?_table]
  cases s.current with
  | none => simp
  | some entry => by_cases hname : entry.name = name <;> simp [hname]

theorem HasEnded.getElem?_table (h : s.HasEnded name entry) : s.table[name]? = some entry := by
  rw [State.getElem?_table]
  cases hcurrent : s.current with
  | none => exact h.found
  | some other =>
    have hname : other.name ≠ name := by simpa [hcurrent] using h.current
    simp only [if_neg hname, h.found]

theorem HasEnded.closeBlock (h : s.HasEnded name entry) : s.closeBlock.HasEnded name entry := by
  refine ⟨h.found, ?_⟩
  rw [name_closeBlock_current]
  exact h.current

theorem HasEnded.absorb (h : s.HasEnded name entry) (hm : m ≠ .startsClass name) :
    (s.absorb options m).HasEnded name entry := by
  rcases absorb_cases s options m with ⟨other, rfl⟩ | ⟨hclasses, hcurrent⟩
  · have hother : other ≠ name := by simpa using hm
    -- The class that ends now has another name, so it does not take the place of the entry.
    refine ⟨h.getElem?_table, ?_⟩
    simpa [State.absorb] using hother
  · refine ⟨?_, ?_⟩
    · rw [hclasses, h.found]
    · rw [hcurrent]
      exact h.current

theorem HasEnded.run (h : s.HasEnded name entry)
    (hlines : ∀ line ∈ lines,
      Meaning.ofLine? options.style (trim line) ≠ some (.startsClass name)) :
    (s.run options lines).HasEnded name entry := by
  apply run_induction (P := (·.HasEnded name entry)) _ _ _ h
  · intro s h
    exact h.closeBlock
  · intro s m line hline hm h
    apply h.absorb
    rintro rfl
    exact hlines line hline hm
  · intro s lastBlank h
    exact ⟨h.found, h.current⟩

theorem mem_table_absorb (h : name ∈ s.table) : name ∈ (s.absorb options m).table := by
  rcases absorb_cases s options m with ⟨other, rfl⟩ | ⟨hclasses, hcurrent⟩
  · exact mem_table_iff.2 (Or.inr h)
  · rw [mem_table_iff] at h ⊢
    rwa [hcurrent, hclasses]

theorem mem_table_run (h : name ∈ s.table) (lines : List (List Char)) :
    name ∈ (s.run options lines).table := by
  apply run_induction (P := fun s => name ∈ s.table) _ _ _ h
  · intro s h
    rw [mem_table_iff] at h ⊢
    rwa [name_closeBlock_current]
  · intro s m line _ _ h
    exact mem_table_absorb h
  · intro s lastBlank h
    rwa [mem_table_iff] at h ⊢

theorem advisories_prefix_run (s : State) (options : Options) (lines : List (List Char)) :
    s.advisories <+: (s.run options lines).advisories := by
  apply run_induction (P := fun s' => s.advisories <+: s'.advisories)
  · intro s' h
    exact h
  · intro s' m line _ _ h
    rw [absorb_advisories]
    exact h.trans (List.prefix_append _ _)
  · intro s' lastBlank h
    exact h
  · exact List.prefix_refl _

end State

variable {options : Options} {style : ReturnStyle} {lines : List (List Char)} {name : String}

theorem hasEnded_run {start next : Nat} {other : String}
    (hstart : meaningAt? options.style lines start = some (.startsClass name))
    (hlast : ∀ j, start < j → j < lines.length →
      meaningAt? options.style lines j ≠ some (.startsClass name))
    (hlt : start < next)
    (hnext : meaningAt? options.style lines next = some (.startsClass other)) :
    ∃ entry, (State.run {} options lines).HasEnded name entry := by
  have hlength := lt_length_of_meaningAt? hnext
  have h := holds_run options (List.ne_nil_of_length_pos (Nat.zero_lt_of_lt hlength))
  have hcurrent : (State.run {} options lines).current.map (·.name) ≠ some name := by
    intro hname
    obtain ⟨entry, hentry, rfl⟩ := Option.map_eq_some_iff.1 hname
    obtain ⟨start', hlt', hnone, hdescribes⟩ := h.current entry hentry
    -- The current class has been started by the last line that starts a class.
    have hle : next ≤ start' := by
      by_contra hgt
      exact hnone next (by omega) hlength other hnext
    exact hlast start' (by omega) hlt' hdescribes.name
  have hfound : (State.run {} options lines).table[name]? ≠ none := by
    intro hmissing
    exact h.missing name hmissing start (lt_length_of_meaningAt? hstart) hstart
  obtain ⟨entry, hentry⟩ := Option.ne_none_iff_exists'.1 hfound
  refine ⟨entry, ?_, hcurrent⟩
  rw [State.getElem?_table] at hentry
  cases hs : (State.run {} options lines).current with
  | none => simpa [hs] using hentry
  | some current =>
    have hname : current.name ≠ name := by simpa [hs] using hcurrent
    simpa [hs, hname] using hentry

theorem advisories_prefix_ofLines_append (options : Options) (front back : List (List Char)) :
    (ofLines options front).value.advisories
      <+:
    (ofLines options (front ++ back)).value.advisories := by
  simp only [advisories_ofLines_eq, stateAt_length, State.run_append]
  apply State.advisories_prefix_run

theorem mem_classes_ofLines_append {front : List (List Char)}
    (h : name ∈ (ofLines options front).value.classes) (back : List (List Char)) :
    name ∈ (ofLines options (front ++ back)).value.classes := by
  rw [classes_ofLines] at h ⊢
  rw [State.run_append]
  exact State.mem_table_run h back

theorem exists_getElem?_ofLines_append {front back : List (List Char)} {start next : Nat}
    {other : String} (hstart : meaningAt? options.style front start = some (.startsClass name))
    (hlast : ∀ j, start < j → j < front.length →
      meaningAt? options.style front j ≠ some (.startsClass name))
    (hlt : start < next)
    (hnext : meaningAt? options.style front next = some (.startsClass other))
    (hback : ∀ line ∈ back,
      Meaning.ofLine? options.style (trim line) ≠ some (.startsClass name)) :
    ∃ entry, (ofLines options front).value.classes[name]? = some entry
      ∧ (ofLines options (front ++ back)).value.classes[name]? = some entry := by
  obtain ⟨entry, hentry⟩ := hasEnded_run hstart hlast hlt hnext
  refine ⟨entry, hentry.getElem?_table, ?_⟩
  rw [classes_ofLines, State.run_append]
  exact (hentry.run hback).getElem?_table

theorem meaningAt?_take {i n : Nat} (h : i < n) :
    meaningAt? style (lines.take n) i = meaningAt? style lines i := by
  simp [meaningAt?, h]

theorem exists_meaningAt?_of_mem_drop_take {n m : Nat} {line : List Char}
    (h : line ∈ (lines.take m).drop n) :
    ∃ j, n ≤ j ∧ j < m ∧ meaningAt? style lines j = Meaning.ofLine? style (trim line) := by
  obtain ⟨i, hi⟩ := List.mem_iff_getElem?.1 h
  rw [List.getElem?_drop, List.getElem?_take] at hi
  split at hi
  · next hlt =>
    refine ⟨n + i, by omega, hlt, ?_⟩
    simp [meaningAt?, hi]
  · contradiction

theorem exists_getElem?_ofLines_take {n m start next : Nat} {other : String}
    (hlt : start < next) (hnext : next < n)
    (hstart : meaningAt? options.style lines start = some (.startsClass name))
    (hlast : ∀ j, start < j → j < n → meaningAt? options.style lines j ≠ some (.startsClass name))
    (hother : meaningAt? options.style lines next = some (.startsClass other))
    (hlater : ∀ j, n ≤ j → j < m → meaningAt? options.style lines j ≠ some (.startsClass name)) :
    ∃ entry, (ofLines options (lines.take n)).value.classes[name]? = some entry
      ∧ (ofLines options (lines.take n ++ (lines.take m).drop n)).value.classes[name]?
        = some entry := by
  have hmeaning : ∀ j, j < n →
      meaningAt? options.style (lines.take n) j = meaningAt? options.style lines j := by
    intro j hj
    exact meaningAt?_take hj
  rw [← hmeaning start (by omega)] at hstart
  rw [← hmeaning next hnext] at hother
  apply exists_getElem?_ofLines_append hstart _ hlt hother
  · intro line hline
    obtain ⟨j, hj, hj', hline⟩ := exists_meaningAt?_of_mem_drop_take hline
    rw [← hline]
    exact hlater j hj hj'
  · intro j hj hj'
    rw [List.length_take] at hj'
    rw [hmeaning j (by omega)]
    exact hlast j hj (by omega)

end Extraction

namespace Document

variable {options : Extraction.Options} {pieces : List (List Char)}

theorem ofText_nil : (ofText options []).value = {} := by
  have hlines : Text.lines [] = [[]] := rfl
  unfold ofText Extraction.ofLines
  rw [hlines, Extraction.State.run_cons, Extraction.State.run_nil,
    Extraction.State.step_blank ⟨rfl, rfl⟩]
  rfl

theorem ofText_intercalate (h : pieces ≠ []) :
    ofText options (['\n'].intercalate pieces)
      =
    Extraction.ofLines options (pieces.flatMap Text.lines) := by
  unfold ofText
  rw [Text.lines_intercalate h]

theorem ofText_intercalate_take {lines : List (List Char)} {n m : Nat} (h : n ≤ m)
    (hne : lines.take n ≠ []) :
    ofText options (['\n'].intercalate (lines.take m))
      =
    Extraction.ofLines options
      ((lines.take n).flatMap Text.lines ++ ((lines.take m).drop n).flatMap Text.lines) := by
  have htake := List.take_append_drop n (lines.take m)
  rw [List.take_take, Nat.min_eq_left h] at htake
  have hne' : lines.take m ≠ [] := by
    rw [← htake]
    exact List.append_ne_nil_of_left_ne_nil hne _
  rw [ofText_intercalate hne', ← List.flatMap_append, htake]

/--
With more lines a text keeps its advisories, to which others can be added, and all its classes. A
class whose last start is followed by the start of another class has ended, and it stays as it is if
no further line starts it.
-/
theorem ofText_of_more_lines (options : Extraction.Options) (lines : List (List Char)) {n m : Nat}
    (h : n ≤ m) :
    let doc := fun k => (ofText options (['\n'].intercalate (lines.take k))).value
    let meaning? := Extraction.meaningAt? options.style lines
    (doc n).advisories <+: (doc m).advisories
      ∧ (∀ name ∈ (doc n).classes, name ∈ (doc m).classes)
      ∧ ((∀ line ∈ lines, '\n' ∉ line) → ∀ name start next other,
        start < next → next < n → meaning? start = some (.startsClass name) →
        (∀ j, start < j → j < n → meaning? j ≠ some (.startsClass name)) →
        meaning? next = some (.startsClass other) →
        (∀ j, n ≤ j → j < m → meaning? j ≠ some (.startsClass name)) →
        ∃ entry, (doc n).classes[name]? = some entry ∧ (doc m).classes[name]? = some entry) := by
  intro doc meaning?
  by_cases hempty : lines.take n = []
  · -- The text is still empty, and no line can start a class.
    have hdoc : doc n = {} := by
      simp only [doc, hempty]
      exact ofText_nil
    refine ⟨?_, ?_, ?_⟩
    · rw [hdoc]
      apply List.nil_prefix
    · intro name hname
      rw [hdoc] at hname
      exact absurd hname Std.ExtTreeMap.not_mem_empty
    · intro _ name start next other _ hnext hstart
      have hlength := Extraction.lt_length_of_meaningAt? hstart
      rw [← List.length_eq_zero_iff, List.length_take] at hempty
      omega
  · simp only [doc, ofText_intercalate hempty, ofText_intercalate_take h hempty]
    refine ⟨?_, ?_, ?_⟩
    · apply Extraction.advisories_prefix_ofLines_append
    · intro name hname
      exact Extraction.mem_classes_ofLines_append hname _
    · intro hlines name start next other hlt hnext hstart hlast hother hlater
      have hfront : ∀ line ∈ lines.take n, '\n' ∉ line := by
        intro line hline
        exact hlines line (List.mem_of_mem_take hline)
      have hback : ∀ line ∈ (lines.take m).drop n, '\n' ∉ line := by
        intro line hline
        exact hlines line (List.mem_of_mem_take (List.mem_of_mem_drop hline))
      rw [Text.flatMap_lines_of_notMem hfront, Text.flatMap_lines_of_notMem hback]
      exact Extraction.exists_getElem?_ofLines_take hlt hnext hstart hlast hother hlater

theorem ofText_of_more_lines_behind_a_class :
    let lines := ["---@class Unit", "function self.start(x)", " --- @Class Timer",
      "local self = Element()", "---@class Screen"].map String.toList
    let doc := fun k => (ofText {} (['\n'].intercalate (lines.take k))).value
    let meaning? := Extraction.meaningAt? .named lines
    meaning? 0 = some (.startsClass "Unit") ∧ meaning? 2 = some (.startsClass "Timer")
      ∧ (∀ j, 3 ≤ j → j < 5 → meaning? j ≠ some (.startsClass "Unit"))
      ∧ (doc 3).advisories <+: (doc 5).advisories
      ∧ ∃ entry, (doc 3).classes["Unit"]? = some entry ∧ (doc 5).classes["Unit"]? = some entry := by
  intro lines doc meaning?
  have hunit : meaning? 0 = some (.startsClass "Unit") := by decide
  have htimer : meaning? 2 = some (.startsClass "Timer") := by decide
  have hlines : ∀ line ∈ lines, '\n' ∉ line := by decide
  have hothers : ∀ j < 5, 0 < j → meaning? j ≠ some (.startsClass "Unit") := by decide
  have hlater : ∀ j, 3 ≤ j → j < 5 → meaning? j ≠ some (.startsClass "Unit") := by
    intro j hj hj'
    exact hothers j hj' (by omega)
  have h := ofText_of_more_lines {} lines (by decide : 3 ≤ 5)
  refine ⟨hunit, htimer, hlater, h.1, ?_⟩
  apply h.2.2 hlines "Unit" 0 2 "Timer" (by decide) (by decide) hunit _ htimer hlater
  intro j hj hj'
  exact hothers j (by omega) hj

end Document
end LuaCodex
