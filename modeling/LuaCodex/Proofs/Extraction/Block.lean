import LuaCodex.Proofs.Extraction.Outline

/-!
This module contains the states between the lines of a text. When a line is read, the pending block
is the block in front of this line.
-/

namespace LuaCodex
namespace Extraction

open Text

/--
The state behind the first `i` lines of a text.
-/
def stateAt (options : Options) (lines : List (List Char)) (i : Nat) : State :=
  State.run {} options (lines.take i)

/--
The state in which line `i` is read. The member declared by the line in front has been filed.
-/
def readyAt (options : Options) (lines : List (List Char)) (i : Nat) : State :=
  (stateAt options lines i).settle

variable {options : Options} {lines : List (List Char)} {i : Nat}

theorem stateAt_length : stateAt options lines lines.length = State.run {} options lines := by
  rw [stateAt, List.take_length]

theorem stateAt_succ (h : i < lines.length) :
    stateAt options lines (i + 1) = (readyAt options lines i).step options lines[i] := by
  rw [readyAt, State.step_settle]
  unfold stateAt
  rw [List.take_succ_eq_append_getElem h, State.run_append]
  rfl

theorem settled_readyAt (options : Options) (lines : List (List Char)) (i : Nat) :
    (readyAt options lines i).Settled := by
  apply State.settled_settle
  exact consistent_run options (lines.take i)

theorem readyAt_zero : readyAt options lines 0 = {} := rfl

theorem stateAt_succ_of_meaningAt? {m : Meaning} (hm : meaningAt? options.style lines i = some m) :
    stateAt options lines (i + 1)
      =
    { (readyAt options lines i).absorb options m with lastBlank := false } := by
  have h := lt_length_of_meaningAt? hm
  rw [stateAt_succ h]
  rw [meaningAt?_of_lt h] at hm
  exact (settled_readyAt options lines i).step_of_meaning hm

theorem stateAt_succ_of_isBlankAt (h : i < lines.length) (hblank : isBlankAt lines i = true) :
    stateAt options lines (i + 1)
      =
    { readyAt options lines i with
      doc := if (readyAt options lines i).lastBlank then {} else (readyAt options lines i).doc
      lastBlank := true } := by
  rw [stateAt_succ h]
  rw [isBlankAt_of_lt h] at hblank
  exact (settled_readyAt options lines i).step_of_blank (List.isEmpty_iff.1 hblank)

theorem stateAt_succ_of_none (h : i < lines.length) (hblank : isBlankAt lines i = false)
    (hm : meaningAt? options.style lines i = none) :
    stateAt options lines (i + 1) = { readyAt options lines i with lastBlank := false } := by
  rw [stateAt_succ h]
  rw [isBlankAt_of_lt h] at hblank
  rw [meaningAt?_of_lt h] at hm
  exact (settled_readyAt options lines i).step_of_none (by simpa using hblank) hm

theorem exists_stateAt_succ_of_none (h : i < lines.length)
    (hm : meaningAt? options.style lines i = none) :
    ∃ doc lastBlank, stateAt options lines (i + 1)
      = { readyAt options lines i with doc, lastBlank } := by
  rw [stateAt_succ h]
  rw [meaningAt?_of_lt h] at hm
  exact (settled_readyAt options lines i).exists_step_of_none hm

theorem declared_stateAt_succ (options : Options) (h : i < lines.length) :
    (stateAt options lines (i + 1)).declared
      =
    (meaningAt? options.style lines i).bind Meaning.declaration? := by
  rw [stateAt_succ h, (settled_readyAt options lines i).step_declared, meaningAt?_of_lt h]

theorem closing_stateAt (options : Options) (lines : List (List Char)) (i : Nat) :
    (stateAt options lines i).closing = (stateAt options lines i).declared.isSome := by
  exact (consistent_run options (lines.take i)).closing_eq

theorem lastBlank_readyAt (h : i ≤ lines.length) :
    (readyAt options lines i).lastBlank = (i == 0 || isBlankAt lines (i - 1)) := by
  cases i with
  | zero => rfl
  | succ i =>
    rw [readyAt, State.settle_lastBlank, stateAt_succ (by omega), State.step_lastBlank]
    rw [Nat.add_sub_cancel, isBlankAt_of_lt (by omega)]
    simp

theorem readyAt_succ_of_declaration {m : Meaning} {declaration : Declaration}
    (hm : meaningAt? options.style lines i = some m) (hd : m.declaration? = some declaration) :
    readyAt options lines (i + 1) = (stateAt options lines (i + 1)).closeBlock := by
  have hdeclared := declared_stateAt_succ options (lt_length_of_meaningAt? hm)
  rw [hm, Option.bind_some, hd] at hdeclared
  rw [readyAt, State.settle, closing_stateAt, hdeclared]
  rfl

theorem readyAt_succ_of_not_declaration (h : i < lines.length)
    (hd : (meaningAt? options.style lines i).bind Meaning.declaration? = none) :
    readyAt options lines (i + 1) = stateAt options lines (i + 1) := by
  rw [readyAt, State.settle, closing_stateAt, declared_stateAt_succ options h, hd]
  rfl

theorem readyAt_doc (h : i ≤ lines.length) :
    (readyAt options lines i).doc = blockDoc options.style lines i := by
  induction i with
  | zero =>
    rw [readyAt_zero, blockDoc, blockMeanings, List.Ico.eq_nil_of_le (Nat.zero_le _)]
    exact Doc.ofMeanings_nil.symm
  | succ i ih =>
    specialize ih (by omega)
    cases hm : meaningAt? options.style lines i with
    | some m =>
      cases hd : m.declaration? with
      | some declaration =>
        -- The block has been filed, and the next one is still empty.
        rw [blockDoc_succ_of_isBoundary (by simp [isBoundary, hm, hd])]
        rw [readyAt_succ_of_declaration hm hd]
        rfl
      | none =>
        -- A line with a meaning is not blank, so it does not bound the block.
        have hblank : isBlankAt lines i = false := by
          by_contra hblank
          rw [meaningAt?_of_isBlankAt (by simpa using hblank)] at hm
          contradiction
        rw [blockDoc_succ (by simp [isBoundary, hm, hd, hblank]) hm, ← ih]
        rw [readyAt_succ_of_not_declaration (by omega) (by simp [hm, hd])]
        rw [stateAt_succ_of_meaningAt? hm]
        exact State.absorb_doc
    | none =>
      rw [readyAt_succ_of_not_declaration (by omega) (by simp [hm])]
      cases hblank : isBlankAt lines i with
      | true =>
        rw [stateAt_succ_of_isBlankAt (by omega) hblank]
        simp only [lastBlank_readyAt (Nat.le_of_succ_le h)]
        split
        · next hlast => rw [blockDoc_succ_of_isBoundary (by simp [isBoundary, hblank, hlast])]
        · next hlast =>
          rw [blockDoc_succ_of_none (by simp_all [isBoundary]) hm, ih]
      | false =>
        rw [stateAt_succ_of_none (by omega) hblank hm]
        rw [blockDoc_succ_of_none (by simp [isBoundary, hm, hblank]) hm, ih]

end Extraction
end LuaCodex
