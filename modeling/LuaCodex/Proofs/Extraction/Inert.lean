import LuaCodex.Proofs.Extraction.Growth

/-!
This module contains how a line without a meaning is inserted into a text. The line can file the
block that a declaration waits for, and it becomes the neighbour of other lines. The main statement
is that the document stays the same if the line neither makes nor parts a pair of blank lines.
-/

namespace LuaCodex
namespace Extraction

open Text

variable {options : Options} {lines : List (List Char)} {line next : List Char} {i : Nat}

namespace State

variable {s : State} {m : Meaning}

theorem absorb_with_lastBlank (lastBlank : Bool) :
    { s with lastBlank }.absorb options m = { s.absorb options m with lastBlank } := by
  cases m with
  | startsClass => simp only [absorb, endClass]; split <;> rfl
  | inherits => simp only [absorb]; split <;> rfl
  | declaresMethod => simp only [absorb, declare, review]; split <;> rfl
  | _ => rfl

theorem Settled.with_lastBlank (h : s.Settled) (lastBlank : Bool) :
    { s with lastBlank }.Settled := ⟨h.closing, h.name, h.kind⟩

theorem Settled.step_with_lastBlank (h : s.Settled) (hnext : trim next ≠ []) (lastBlank : Bool) :
    { s with lastBlank }.step options next = s.step options next := by
  cases hm : Meaning.ofLine? options.style (trim next) with
  | some m =>
    rw [(h.with_lastBlank lastBlank).step_of_meaning hm, h.step_of_meaning hm,
      absorb_with_lastBlank]
  | none => rw [(h.with_lastBlank lastBlank).step_of_none hnext hm, h.step_of_none hnext hm]

theorem Settled.step_step_of_text (h : s.Settled) (hline : trim line ≠ [])
    (hm : Meaning.ofLine? options.style (trim line) = none)
    (hnext : s.lastBlank = true → trim next ≠ []) :
    (s.step options line).step options next = s.step options next := by
  rw [h.step_of_none hline hm]
  cases hblank : s.lastBlank with
  | false => rw [← hblank]
  | true => exact h.step_with_lastBlank (hnext hblank) false

theorem Settled.step_step_of_blank (h : s.Settled) (hline : trim line = [])
    (hblank : s.lastBlank = false) (hnext : trim next ≠ []) :
    (s.step options line).step options next = s.step options next := by
  rw [h.step_of_blank hline, hblank]
  exact h.step_with_lastBlank hnext true

theorem step_step_of_start (hm : Meaning.ofLine? options.style (trim line) = none) :
    (step {} options line).step options next = step {} options next := by
  have h : Settled {} := ⟨rfl, rfl, rfl⟩
  by_cases hline : trim line = []
  · rw [h.step_of_blank hline]
    rfl
  · rw [h.step_of_none hline hm]
    by_cases hnext : trim next = []
    · rw [(h.with_lastBlank false).step_of_blank hnext, h.step_of_blank hnext]
      rfl
    · exact h.step_with_lastBlank hnext false

end State

/--
A line can be inserted in front of line `i` without a new or a lost pair of blank lines: it becomes
the first line, or it is not blank and does not part two blank lines, or it is blank and has no
blank neighbour.
-/
def KeepsGaps (lines : List (List Char)) (i : Nat) (line : List Char) : Prop :=
  i = 0
    ∨ (trim line ≠ [] ∧ ¬(isBlankAt lines (i - 1) = true ∧ isBlankAt lines i = true))
    ∨ (trim line = [] ∧ isBlankAt lines (i - 1) = false ∧ isBlankAt lines i = false)

instance (lines : List (List Char)) (i : Nat) (line : List Char) :
    Decidable (KeepsGaps lines i line) :=
  inferInstanceAs (Decidable (_ ∨ _))

theorem step_step_readyAt (h : i < lines.length)
    (hm : Meaning.ofLine? options.style (trim line) = none) (hgaps : KeepsGaps lines i line) :
    ((readyAt options lines i).step options line).step options lines[i]
      =
    (readyAt options lines i).step options lines[i] := by
  have hsettled := settled_readyAt options lines i
  have hblank : (readyAt options lines i).lastBlank = (i == 0 || isBlankAt lines (i - 1)) :=
    lastBlank_readyAt h.le
  have hnext : isBlankAt lines i = true ↔ trim lines[i] = [] := by
    rw [isBlankAt_of_lt h, List.isEmpty_iff]
  by_cases hfirst : i = 0
  · subst hfirst
    exact State.step_step_of_start hm
  rw [beq_false_of_ne hfirst, Bool.false_or] at hblank
  rcases hgaps with hzero | ⟨hline, hpair⟩ | ⟨hline, hbefore, hbehind⟩
  · contradiction
  · apply hsettled.step_step_of_text hline hm
    intro hlast hempty
    exact hpair ⟨hblank ▸ hlast, hnext.2 hempty⟩
  · apply hsettled.step_step_of_blank hline (hblank.trans hbefore)
    rwa [ne_eq, ← hnext, Bool.not_eq_true]

theorem run_insertIdx (h : i < lines.length)
    (hm : Meaning.ofLine? options.style (trim line) = none) (hgaps : KeepsGaps lines i line) :
    State.run {} options (lines.insertIdx i line) = State.run {} options lines := by
  have hsplit : lines = lines.take i ++ lines[i] :: lines.drop (i + 1) := by
    rw [List.getElem_cons_drop, List.take_append_drop]
  have hinsert : lines.insertIdx i line
      = lines.take i ++ line :: lines[i] :: lines.drop (i + 1) := by
    obtain ⟨front, back, rfl, hlength, hmodify⟩ :=
      List.exists_of_modifyTailIdx (List.cons line) h.le
    rw [List.getElem_cons_drop, List.insertIdx, hmodify, ← hlength, List.take_left, List.drop_left]
  have hstep := step_step_readyAt h hm hgaps
  rw [readyAt, State.step_settle, State.step_settle, stateAt] at hstep
  conv_rhs => rw [hsplit]
  rw [hinsert, State.run_append, State.run_append, State.run_cons, State.run_cons, State.run_cons,
    hstep]

theorem ofLines_insertIdx (h : i < lines.length)
    (hm : Meaning.ofLine? options.style (trim line) = none) (hgaps : KeepsGaps lines i line) :
    ofLines options (lines.insertIdx i line) = ofLines options lines := by
  rw [ofLines, run_insertIdx h hm hgaps, ofLines]

end Extraction

/--
A line without a meaning can be inserted in front of another line without a change of the document,
if this leaves the pairs of blank lines as they are.
-/
theorem Document.ofText_insertIdx {options : Extraction.Options} {lines : List (List Char)}
    {line : List Char} {i : Nat} (h : i < lines.length)
    (hm : Meaning.ofLine? options.style (Text.trim line) = none)
    (hgaps : Extraction.KeepsGaps lines i line) :
    Extraction.ofLines options (lines.insertIdx i line) = Extraction.ofLines options lines
      ∧ ((∀ l ∈ line :: lines, '\n' ∉ l) →
        ofText options (['\n'].intercalate (lines.insertIdx i line))
          =
        ofText options (['\n'].intercalate lines)) := by
  have hlines := Extraction.ofLines_insertIdx h hm hgaps
  refine ⟨hlines, ?_⟩
  intro hbreak
  have hne : lines ≠ [] := List.ne_nil_of_length_pos (Nat.zero_lt_of_lt h)
  have hne' : lines.insertIdx i line ≠ [] := by
    apply List.ne_nil_of_length_pos
    rw [List.length_insertIdx_of_le_length h.le]
    omega
  have hbreak' : ∀ l ∈ lines.insertIdx i line, '\n' ∉ l := by
    intro l hl
    exact hbreak l (List.insertIdx_subset_cons i line lines hl)
  rw [ofText_intercalate hne, ofText_intercalate hne', Text.flatMap_lines_of_notMem hbreak',
    Text.flatMap_lines_of_notMem (List.forall_mem_cons.1 hbreak).2, hlines]

theorem Document.ofText_insertIdx_behind_a_method :
    let lines := ["---@class Unit", "", "--- Start it.", "function self.start(x)", "", "",
      "self.stopped = Event:new()", ""].map String.toList
    let line := "  return x".toList
    4 < lines.length ∧ Meaning.ofLine? .named (Text.trim line) = none
      ∧ Extraction.KeepsGaps lines 4 line ∧ (∀ l ∈ line :: lines, '\n' ∉ l)
      ∧ ofText {} (['\n'].intercalate (lines.insertIdx 4 line))
          = ofText {} (['\n'].intercalate lines) := by
  intro lines line
  have hm : Meaning.ofLine? .named (Text.trim line) = none := by decide
  have hgaps : Extraction.KeepsGaps lines 4 line := by decide
  have hbreak : ∀ l ∈ line :: lines, '\n' ∉ l := by decide
  have h := @ofText_insertIdx {} lines line 4 (by decide) hm hgaps
  exact ⟨by decide, hm, hgaps, hbreak, h.2 hbreak⟩

end LuaCodex
