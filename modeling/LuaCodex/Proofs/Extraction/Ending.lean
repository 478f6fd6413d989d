import LuaCodex.Proofs.Extraction.Join

/-!
This module contains what the end of a text means for its document. A declaration on the last line
is filed as soon as anything follows, if it is only a line break. The main statement is that a line
break at the end adds no more than this one member, and that white space behind it adds nothing.
-/

namespace LuaCodex

theorem Text.trim_eq_nil_of_mem_lines {gap line : List Char} (h : AllBlank gap)
    (hline : line ∈ lines gap) : trim line = [] := by
  have hblank : AllBlank line := by
    intro c hc
    exact h c ((of_mem_splitOn hline).2 hc)
  rw [trim, ← List.append_nil line, trimStart_append hblank, trimStart_nil, trimEnd_nil]

namespace Extraction

open Text

namespace State

variable {s : State} {options : Options} {gap : List (List Char)}

theorem Settled.exists_run_of_blank (h : s.Settled) (hgap : ∀ line ∈ gap, trim line = []) :
    ∃ doc lastBlank, s.run options gap = { s with doc, lastBlank } := by
  induction gap generalizing s with
  | nil => exact ⟨s.doc, s.lastBlank, rfl⟩
  | cons line gap ih =>
    obtain ⟨hline, hgap⟩ := List.forall_mem_cons.1 hgap
    have hstep : s.step options line = _ := h.step_of_blank hline
    have hnext : (s.step options line).Settled := by
      rw [hstep]
      exact ⟨h.closing, h.name, h.kind⟩
    obtain ⟨doc, lastBlank, hrun⟩ := ih hnext hgap
    exact ⟨doc, lastBlank, by rw [run_cons, hrun, hstep]⟩

theorem finish_with (s : State) (doc : Doc) (lastBlank : Bool) :
    { s with doc, lastBlank }.finish = s.finish := by
  unfold finish endClass
  cases s.current <;> rfl

theorem finish_run_of_blank (h : s.Consistent) (hne : gap ≠ [])
    (hgap : ∀ line ∈ gap, trim line = []) : (s.run options gap).finish = s.settle.finish := by
  -- The first blank line files what a declaration waits for, and no line does more than that.
  have hrun : s.run options gap = s.settle.run options gap := by
    cases gap with
    | nil => contradiction
    | cons line gap => rw [run_cons, run_cons, step_settle]
  obtain ⟨doc, lastBlank, hsettled⟩ : ∃ doc lastBlank, s.settle.run options gap = _ :=
    (settled_settle h).exists_run_of_blank hgap
  rw [hrun, hsettled, finish_with]

end State

variable {options : Options} {style : ReturnStyle} {lines gap : List (List Char)} {i : Nat}

theorem ofLines_append_blank (hne : gap ≠ []) (hgap : ∀ line ∈ gap, trim line = []) :
    ofLines options (lines ++ gap) = (readyAt options lines lines.length).finish := by
  rw [ofLines, State.run_append, readyAt, stateAt_length]
  exact State.finish_run_of_blank (consistent_run options lines) hne hgap

theorem advisories_readyAt (options : Options) (lines : List (List Char)) :
    (readyAt options lines lines.length).finish.value.advisories
      =
    (ofLines options lines).value.advisories := by
  rw [advisories_ofLines_eq, readyAt, ← State.settle_advisories]
  exact State.endClass_advisories

theorem table_readyAt_of_none (hlt : i < lines.length)
    (hcurrent : (stateAt options lines (i + 1)).current = none) :
    (readyAt options lines (i + 1)).table = (stateAt options lines (i + 1)).table := by
  obtain ⟨g, hready, -⟩ := exists_readyAt_succ_current hlt
  rw [hcurrent] at hready
  apply State.endClass_classes_congr State.settle_classes
  rw [hcurrent]
  exact hready

theorem exists_getElem?_readyAt (hlt : i < lines.length) {entry : ApiClass}
    (hcurrent : (stateAt options lines (i + 1)).current = some entry) :
    ∃ entry', AddsMember options.style lines i entry entry'
      ∧ (stateAt options lines (i + 1)).table[entry.name]? = some entry
      ∧ (readyAt options lines (i + 1)).table[entry.name]? = some entry'
      ∧ ∀ other : String, other ≠ entry.name →
        (readyAt options lines (i + 1)).table[other]?
          = (stateAt options lines (i + 1)).table[other]? := by
  obtain ⟨g, hready, hadds⟩ := exists_readyAt_succ_current hlt
  rw [hcurrent, Option.map_some] at hready
  have hclasses : (readyAt options lines (i + 1)).classes
      = (stateAt options lines (i + 1)).classes := State.settle_classes
  refine ⟨g entry, hadds entry, ?_, ?_, ?_⟩
  · simp [State.getElem?_table, hcurrent]
  · simp [State.getElem?_table, hready, (hadds entry).name]
  · intro other hother
    simp [State.getElem?_table, hready, hcurrent, hclasses, (hadds entry).name, hother.symm]

theorem map_parent_getElem?_readyAt (hlt : i < lines.length) (name : String) :
    (readyAt options lines (i + 1)).table[name]?.map (·.parent)
      =
    (stateAt options lines (i + 1)).table[name]?.map (·.parent) := by
  cases hcurrent : (stateAt options lines (i + 1)).current with
  | none => rw [table_readyAt_of_none hlt hcurrent]
  | some entry =>
    obtain ⟨entry', hadds, hbefore, hbehind, hothers⟩ := exists_getElem?_readyAt hlt hcurrent
    by_cases hname : name = entry.name
    · rw [hname, hbefore, hbehind, Option.map_some, Option.map_some, hadds.parent]
    · rw [hothers name hname]

theorem table_readyAt_of_not_member (hlength : lines.length = i + 1)
    (h : (meaningAt? options.style lines i).bind Meaning.declaration? = none
      ∨ ∀ j name, meaningAt? options.style lines j ≠ some (.startsClass name)) :
    (readyAt options lines (i + 1)).table = (stateAt options lines (i + 1)).table := by
  rcases h with hd | hnone
  · rw [readyAt_succ_of_not_declaration (by omega) hd]
  · have h := holds_run options (List.ne_nil_of_length_eq_add_one hlength)
    rw [← stateAt_length, hlength] at h
    apply table_readyAt_of_none (by omega)
    -- A current class has been started by a line.
    by_contra hsome
    obtain ⟨entry, hentry⟩ := Option.ne_none_iff_exists'.1 hsome
    obtain ⟨start, -, -, hdescribes⟩ := h.current entry hentry
    exact hnone start entry.name hdescribes.name

theorem exists_addsMember_readyAt (hlength : lines.length = i + 1) {start : Nat} {name : String}
    (hstart : meaningAt? options.style lines start = some (.startsClass name))
    (hlast : ∀ j, start < j →
      ∀ other, meaningAt? options.style lines j ≠ some (.startsClass other)) :
    (∀ other : String, other ≠ name →
        (readyAt options lines (i + 1)).table[other]?
          = (stateAt options lines (i + 1)).table[other]?)
      ∧ ∃ entry entry', (stateAt options lines (i + 1)).table[name]? = some entry
        ∧ (readyAt options lines (i + 1)).table[name]? = some entry'
        ∧ AddsMember options.style lines i entry entry' := by
  have h := holds_run options (List.ne_nil_of_length_eq_add_one hlength)
  rw [← stateAt_length, hlength] at h
  have hlt := lt_length_of_meaningAt? hstart
  cases hcurrent : (stateAt options lines (i + 1)).current with
  | none => exact absurd hstart (h.noCurrent hcurrent start (by omega) (by omega) name)
  | some entry =>
    -- The current class is the one that the last line of its kind has started.
    have hname : entry.name = name := by
      obtain ⟨start', hlt', hnone, hdescribes⟩ := h.current entry hcurrent
      have heq : start' = start := by
        rcases Nat.lt_trichotomy start' start with hbefore | heq | hbehind
        · exact absurd hstart (hnone start hbefore (by omega) name)
        · exact heq
        · exact absurd hdescribes.name (hlast start' hbehind entry.name)
      have hsame := hdescribes.name
      rw [heq, hstart] at hsame
      cases hsame
      rfl
    subst hname
    obtain ⟨entry', hadds, hbefore, hbehind, hothers⟩ :=
      exists_getElem?_readyAt (by omega) hcurrent
    exact ⟨hothers, entry, entry', hbefore, hbehind, hadds⟩

end Extraction

namespace Document

theorem ofText_append_blank (options : Extraction.Options) (text : List Char) {gap : List Char}
    (hgap : Text.AllBlank gap) :
    ofText options (text ++ '\n' :: gap)
      =
    (Extraction.readyAt options (Text.lines text) (Text.lines text).length).finish := by
  rw [ofText, Text.lines_append]
  apply Extraction.ofLines_append_blank (List.splitOn_ne_nil _ _)
  intro line hline
  exact Text.trim_eq_nil_of_mem_lines hgap hline

/--
White space behind a line break at the end of a text does not count. The line break itself files
what the last line declares, if this is a member and if there is a class: the last class of the text
gets this member with the block in front of it, in place of an earlier one of the same name. Nothing
else depends on the line break.
-/
theorem ofText_newline (options : Extraction.Options) (text : List Char) :
    let lines := Text.lines text
    let meaning? := Extraction.meaningAt? options.style lines
    let cut := (ofText options text).value
    let ended := (ofText options (text ++ ['\n'])).value
    (∀ gap, Text.AllBlank gap →
        ofText options (text ++ '\n' :: gap) = ofText options (text ++ ['\n']))
      ∧ ended.advisories = cut.advisories
      ∧ (∀ name, name ∈ ended.classes ↔ name ∈ cut.classes)
      ∧ (∀ name : String, ended.classes[name]?.map (·.parent) = cut.classes[name]?.map (·.parent))
      ∧ ((meaning? (lines.length - 1)).bind Meaning.declaration? = none
          ∨ (∀ i name, meaning? i ≠ some (.startsClass name)) → ended = cut)
      ∧ ∀ start name, meaning? start = some (.startsClass name) →
        (∀ j, start < j → ∀ other, meaning? j ≠ some (.startsClass other)) →
        (∀ other : String, other ≠ name → ended.classes[other]? = cut.classes[other]?)
          ∧ ∃ entry entry', cut.classes[name]? = some entry ∧ ended.classes[name]? = some entry'
            ∧ Extraction.AddsMember options.style lines (lines.length - 1) entry entry' := by
  intro lines meaning? cut ended
  have hnil : Text.AllBlank [] := by simp [Text.AllBlank]
  have hended : ended = (Extraction.readyAt options lines lines.length).finish.value :=
    congrArg Noted.value (ofText_append_blank options text hnil)
  obtain ⟨i, hlength⟩ := Nat.exists_eq_succ_of_ne_zero
    (List.length_eq_zero_iff.not.2 (List.splitOn_ne_nil '\n' text) : lines.length ≠ 0)
  have hlt : i < lines.length := by omega
  have hclasses : ended.classes = (Extraction.readyAt options lines (i + 1)).table := by
    rw [hended, hlength]
    rfl
  have hcut : cut.classes = (Extraction.stateAt options lines (i + 1)).table := by
    rw [← Nat.succ_eq_add_one, ← hlength, Extraction.stateAt_length]
    rfl
  have hparents : ∀ name : String,
      ended.classes[name]?.map (·.parent) = cut.classes[name]?.map (·.parent) := by
    intro name
    rw [hclasses, hcut]
    exact Extraction.map_parent_getElem?_readyAt hlt name
  have hadvisories : ended.advisories = cut.advisories := by
    rw [hended]
    exact Extraction.advisories_readyAt options lines
  refine ⟨?_, hadvisories, ?_, hparents, ?_, ?_⟩
  · intro gap hgap
    rw [ofText_append_blank options text hgap, ofText_append_blank options text hnil]
  · intro name
    have hsome := congrArg Option.isSome (hparents name)
    rw [Option.isSome_map, Option.isSome_map] at hsome
    rw [Std.ExtTreeMap.mem_iff_isSome_getElem?, Std.ExtTreeMap.mem_iff_isSome_getElem?, hsome]
  · intro h
    rw [hlength] at h
    have htable := Extraction.table_readyAt_of_not_member hlength h
    apply ext_getElem? _ hadvisories
    intro name
    rw [hclasses, hcut, htable]
  · intro start name hstart hlast
    rw [hclasses, hcut, hlength]
    exact Extraction.exists_addsMember_readyAt hlength hstart hlast

theorem ofText_newline_behind_a_method :
    let text := ("---@class Unit\n---@class Timer\n---Old\nfunction self.stop()\n"
      ++ "---New\nfunction self:stop()").toList
    let other := "---@class Unit\nfunction self.stop()\nend".toList
    let gap := " \n\t\r\n".toList
    let lines := Text.lines text
    let meaning? := Extraction.meaningAt? .named lines
    Text.AllBlank gap ∧ ofText {} (text ++ '\n' :: gap) = ofText {} (text ++ ['\n'])
      ∧ (Extraction.meaningAt? .named (Text.lines other) 2).bind Meaning.declaration? = none
      ∧ (ofText {} (other ++ ['\n'])).value = (ofText {} other).value
      ∧ meaning? 1 = some (.startsClass "Timer")
      ∧ (∀ j, 1 < j → ∀ other, meaning? j ≠ some (.startsClass other))
      ∧ ∃ entry entry', (ofText {} text).value.classes["Timer"]? = some entry
        ∧ (ofText {} (text ++ ['\n'])).value.classes["Timer"]? = some entry'
        ∧ Extraction.AddsMember .named lines 5 entry entry' := by
  intro text other gap lines meaning?
  have hgap : Text.AllBlank gap := by decide
  have hother : (Extraction.meaningAt? .named (Text.lines other) 2).bind Meaning.declaration?
      = none := by
    decide
  have hstart : meaning? 1 = some (.startsClass "Timer") := by decide
  have hlast : ∀ j, 1 < j → ∀ other, meaning? j ≠ some (.startsClass other) := by
    intro j hj other heq
    have hlength : j < 6 := Extraction.lt_length_of_meaningAt? heq
    have hmeanings : ∀ j < 6, 1 < j → (meaning? j = some (.comment "Old")
      ∨ meaning? j = some (.comment "New") ∨ ((meaning? j).bind Meaning.declaration?).isSome) := by
      decide
    rcases hmeanings j hlength hj with h | h | h <;> simp [heq, Meaning.declaration?] at h
  have h := ofText_newline {} text
  refine ⟨hgap, h.1 gap hgap, hother, ?_, hstart, hlast, ?_⟩
  · exact (ofText_newline {} other).2.2.2.2.1 (Or.inl hother)
  · exact (h.2.2.2.2.2 1 "Timer" hstart hlast).2

end Document
end LuaCodex
