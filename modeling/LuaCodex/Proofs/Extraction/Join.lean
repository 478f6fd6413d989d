import LuaCodex.Proofs.Document.Unite
import LuaCodex.Proofs.Extraction.Review
import LuaCodex.Proofs.Text.Lines

/-!
This module contains what is extracted from two texts behind each other. Two blank lines leave
nothing of the first text pending but its current class, and the first class of the second text ends
this one. The main statement is that the second text then adds its document to the one of the first
text, as if the texts were merged.
-/

namespace LuaCodex

namespace Extraction

open Text

namespace State

/--
A state behind what an earlier one has found.
-/
def behind (s earlier : State) : State :=
  { s with
    classes := earlier.classes ∪ s.classes
    advisories := earlier.advisories ++ s.advisories
    notices := earlier.notices ++ s.notices }

variable {s earlier : State} {options : Options} {line : List Char} {m : Meaning}

theorem endClass_behind : (s.behind earlier).endClass = s.endClass.behind earlier := by
  unfold endClass
  cases hcurrent : s.current with
  | none => simp [behind, hcurrent]
  | some entry =>
    have hinsert : earlier.classes ∪ s.classes.insert entry.name entry
        = (earlier.classes ∪ s.classes).insert entry.name entry :=
      Std.ExtTreeMap.union_insert_right_eq_insert_union (p := ⟨entry.name, entry⟩)
    simp only [behind, hcurrent, hinsert, List.append_assoc]

theorem review_behind {signature : Signature} :
    (s.behind earlier).review options signature = (s.review options signature).behind earlier := by
  have hdoc : (s.behind earlier).doc = s.doc := rfl
  unfold review
  rw [hdoc]
  split
  · simp only [behind, List.append_assoc]
    split <;> rfl
  · rfl

theorem absorb_behind :
    (s.behind earlier).absorb options m = (s.absorb options m).behind earlier := by
  cases m with
  | startsClass name =>
    simp only [absorb, endClass_behind]
    rfl
  | inherits parent =>
    simp only [absorb]
    cases hcurrent : s.current with
    | none => simp [behind, hcurrent]
    | some entry => simp [behind, hcurrent]
  | declaresMethod signature =>
    simp only [absorb, review_behind]
    rfl
  | _ => rfl

theorem step_behind :
    (s.behind earlier).step options line = (s.step options line).behind earlier := by
  have hopen : ∀ close : Bool, (if close then (s.behind earlier).closeBlock else s.behind earlier)
      = (if close then s.closeBlock else s).behind earlier := by
    intro close
    cases close <;> rfl
  have hclosing : (s.behind earlier).closing = s.closing := rfl
  have hlast : (s.behind earlier).lastBlank = s.lastBlank := rfl
  simp only [step, hclosing, hlast, hopen]
  cases Meaning.ofLine? options.style (trim line) with
  | none => rfl
  | some m =>
    simp only [absorb_behind]
    rfl

theorem run_behind (lines : List (List Char)) :
    (s.behind earlier).run options lines = (s.run options lines).behind earlier := by
  induction lines generalizing s with
  | nil => rfl
  | cons line lines ih => rw [run_cons, run_cons, step_behind, ih]

theorem step_blank (h : s.Consistent) :
    s.step options []
      =
    { s.settle with doc := if s.lastBlank then {} else s.settle.doc, lastBlank := true } := by
  rw [← step_settle, (settled_settle h).step_of_blank trim_nil, settle_lastBlank]

theorem step_blank_blank (h : s.Consistent) :
    (s.step options []).step options [] = { s.settle with doc := {}, lastBlank := true } := by
  have hsettled := settled_settle h
  have hnext : (s.step options []).Settled := by
    rw [step_blank h]
    exact ⟨hsettled.closing, hsettled.name, hsettled.kind⟩
  rw [hnext.step_of_blank trim_nil, step_lastBlank, step_blank h]
  rfl

theorem endClass_current : s.endClass.current = none := by
  unfold endClass
  cases hcurrent : s.current with
  | none => exact hcurrent
  | some entry => rfl

theorem Settled.behind_endClass (h : s.Settled) (hdoc : s.doc = {}) (hblank : s.lastBlank = true) :
    ({} : State).behind s.endClass = s.endClass := by
  have hclasses : s.endClass.classes ∪ ∅ = s.endClass.classes := by
    apply Std.ExtTreeMap.ext_getElem?
    intro name
    rw [Std.ExtTreeMap.getElem?_union, Std.ExtTreeMap.getElem?_empty, Option.none_or]
  have hcurrent := endClass_current (s := s)
  have hfields : s.endClass.doc = {} ∧ s.endClass.name = none ∧ s.endClass.kind = none
      ∧ s.endClass.closing = false ∧ s.endClass.lastBlank = true := by
    simp [hdoc, h.name, h.kind, h.closing, hblank]
  cases hend : s.endClass
  simp_all [behind]

theorem Settled.step_of_startsClass {name : String} (h : s.Settled) (hdoc : s.doc = {})
    (hblank : s.lastBlank = true)
    (hm : Meaning.ofLine? options.style (trim line) = some (.startsClass name)) :
    s.step options line = (({} : State).step options line).behind s.endClass := by
  have hinit : ({} : State).Settled := ⟨rfl, rfl, rfl⟩
  have hstart : s.absorb options (.startsClass name)
      = (({} : State).behind s.endClass).absorb options (.startsClass name) := by
    have hend : (({} : State).behind s.endClass).endClass
        = ({} : State).endClass.behind s.endClass := endClass_behind
    have hempty : ({} : State).endClass = {} := rfl
    simp only [absorb]
    rw [hend, hempty, h.behind_endClass hdoc hblank]
  rw [h.step_of_meaning hm, hinit.step_of_meaning hm, hstart, absorb_behind]
  rfl

theorem Settled.run_of_startsClass {name : String} {lines : List (List Char)} (h : s.Settled)
    (hdoc : s.doc = {}) (hblank : s.lastBlank = true)
    (hm : meaningAt? options.style lines 0 = some (.startsClass name)) :
    s.run options lines = (({} : State).run options lines).behind s.endClass := by
  cases lines with
  | nil => contradiction
  | cons line lines =>
    rw [meaningAt?_of_lt (by simp), List.getElem_cons_zero] at hm
    rw [run_cons, run_cons, h.step_of_startsClass hdoc hblank hm, run_behind]

theorem endClass_classes_congr {s' : State} (hclasses : s.classes = s'.classes)
    (hcurrent : s.current = s'.current) : s.endClass.classes = s'.endClass.classes := by
  unfold endClass
  rw [hcurrent]
  cases s'.current with
  | none => exact hclasses
  | some entry => simp only [hclasses]

end State

variable {options : Options} {front back : List (List Char)} {name : String}

theorem run_append_blank (options : Options) (front : List (List Char)) :
    State.run {} options (front ++ [[]])
      =
    { (State.run {} options front).settle with
      doc := if (State.run {} options front).lastBlank then {}
        else (State.run {} options front).settle.doc
      lastBlank := true } := by
  rw [State.run_append, State.run_cons, State.run_nil]
  exact State.step_blank (consistent_run options front)

theorem run_append_blank_blank (options : Options) (front : List (List Char)) :
    State.run {} options (front ++ [[], []])
      =
    { (State.run {} options front).settle with doc := {}, lastBlank := true } := by
  rw [State.run_append, State.run_cons, State.run_cons, State.run_nil]
  exact State.step_blank_blank (consistent_run options front)

theorem settled_run_append_blank_blank (options : Options) (front : List (List Char)) :
    (State.run {} options (front ++ [[], []])).Settled := by
  have h := State.settled_settle (consistent_run options front)
  rw [run_append_blank_blank]
  exact ⟨h.closing, h.name, h.kind⟩

theorem run_append_of_startsClass
    (hm : meaningAt? options.style back 0 = some (.startsClass name)) :
    State.run {} options (front ++ [[], []] ++ back)
      =
    (State.run {} options back).behind (State.run {} options (front ++ [[], []])).endClass := by
  have h := settled_run_append_blank_blank options front
  rw [State.run_append _ _ (front ++ [[], []])]
  rw [h.run_of_startsClass _ _ hm]
  · rw [run_append_blank_blank]
  · rw [run_append_blank_blank]

theorem classes_ofLines_append (hm : meaningAt? options.style back 0 = some (.startsClass name)) :
    (ofLines options (front ++ [[], []] ++ back)).value.classes
      =
    (ofLines options (front ++ [[]])).value.classes ∪ (ofLines options back).value.classes := by
  have hfront : (State.run {} options (front ++ [[], []])).endClass.classes
      = (State.run {} options (front ++ [[]])).endClass.classes := by
    apply State.endClass_classes_congr
    · rw [run_append_blank, run_append_blank_blank]
    · rw [run_append_blank, run_append_blank_blank]
  simp only [classes_ofLines, State.table]
  rw [run_append_of_startsClass hm, State.endClass_behind, ← hfront]
  rfl

theorem advisories_ofLines_append
    (hm : meaningAt? options.style back 0 = some (.startsClass name)) :
    (ofLines options (front ++ [[], []] ++ back)).value.advisories
      =
    (ofLines options front).value.advisories ++ (ofLines options back).value.advisories := by
  simp only [advisories_ofLines_eq, stateAt_length, run_append_of_startsClass hm, State.behind,
    State.endClass_advisories, run_append_blank_blank, State.settle_advisories]

theorem advisories_ofLines_append_blank (options : Options) (front : List (List Char)) :
    (ofLines options (front ++ [[]])).value.advisories
      =
    (ofLines options front).value.advisories := by
  simp only [advisories_ofLines_eq, stateAt_length, run_append_blank, State.settle_advisories]

end Extraction

/--
A text that starts with a class adds what it says to a text in front of it, if there are two blank
lines in between. Classes that both texts have are those of the second text as a whole. If there are
none, the result is that of merging the two.
-/
theorem Document.ofText_join (options : Extraction.Options) {front back : List Char}
    {name : String}
    (h : Extraction.meaningAt? options.style (Text.lines back) 0 = some (.startsClass name)) :
    let joined := (ofText options (front ++ "\n\n\n".toList ++ back)).value
    let earlier := (ofText options (front ++ "\n".toList)).value
    let later := (ofText options back).value
    (∀ name : String, joined.classes[name]? = later.classes[name]?.or earlier.classes[name]?)
      ∧ joined.advisories = (ofText options front).value.advisories ++ later.advisories
      ∧ ((∀ name ∈ earlier.classes, name ∉ later.classes) → ∀ source source',
        joined = (unite [(source, earlier), (source', later)]).value) := by
  intro joined earlier later
  have hjoined : Text.lines (front ++ "\n\n\n".toList ++ back)
      = Text.lines front ++ [[], []] ++ Text.lines back := by
    have hbreaks : front ++ "\n\n\n".toList ++ back
        = front ++ '\n' :: ([] ++ '\n' :: ([] ++ '\n' :: back)) := by
      rw [List.append_assoc]
      rfl
    rw [hbreaks, Text.lines_append, Text.lines_append, Text.lines_append, List.append_assoc]
    rfl
  have hearlier : Text.lines (front ++ "\n".toList) = Text.lines front ++ [[]] := by
    apply Text.lines_append
  have hclasses : joined.classes = earlier.classes ∪ later.classes := by
    simp only [joined, earlier, later, ofText, hjoined, hearlier]
    exact Extraction.classes_ofLines_append h
  have hadvisories : joined.advisories
      = (ofText options front).value.advisories ++ later.advisories := by
    simp only [joined, later, ofText, hjoined]
    exact Extraction.advisories_ofLines_append h
  refine ⟨?_, hadvisories, ?_⟩
  · intro name
    rw [hclasses, Std.ExtTreeMap.getElem?_union]
  · intro hdisjoint source source'
    have hblank : earlier.advisories = (ofText options front).value.advisories := by
      simp only [earlier, ofText, hearlier]
      apply Extraction.advisories_ofLines_append_blank
    rw [unite_pair, union_eq_of_disjoint hdisjoint, ← hclasses, hblank, ← hadvisories]

theorem Document.ofText_join_of_two_classes :
    let front := "---@class Unit\nfunction self.start(x)".toList
    let back := " --- @Class Timer\nself.tick = Event:new()\n".toList
    let earlier := (ofText {} (front ++ "\n".toList)).value
    let later := (ofText {} back).value
    Extraction.meaningAt? .named (Text.lines back) 0 = some (.startsClass "Timer")
      ∧ earlier.classes.keys = ["Unit"] ∧ later.classes.keys = ["Timer"]
      ∧ (ofText {} (front ++ "\n\n\n".toList ++ back)).value
        = (unite [("Unit.lua", earlier), ("Timer.lua", later)]).value := by
  intro front back earlier later
  have hstart : Extraction.meaningAt? .named (Text.lines back) 0 = some (.startsClass "Timer") := by
    decide
  have hearlier : earlier.classes.keys = ["Unit"] := rfl
  have hlater : later.classes.keys = ["Timer"] := rfl
  refine ⟨hstart, hearlier, hlater, ?_⟩
  apply (ofText_join {} hstart).2.2
  intro name
  rw [← Std.ExtTreeMap.mem_keys, ← Std.ExtTreeMap.mem_keys, hearlier, hlater]
  simp +contextual

end LuaCodex
