import Mathlib.Data.List.Intervals
import Mathlib.Data.Nat.Find
import LuaCodex.Proofs.Extraction.Step

/-!
This module contains how the lines of a text belong together, told by their indices: which line
bounds a block, which lines a block consists of, and what the block in front of a line says.
-/

namespace LuaCodex
namespace Extraction

open Text

section

variable (style : ReturnStyle) (lines : List (List Char))

/--
The meaning of the line with an index.
-/
def meaningAt? (i : Nat) : Option Meaning :=
  lines[i]?.bind fun line => Meaning.ofLine? style (trim line)

/--
Decide whether there is a blank line with an index.
-/
def isBlankAt (i : Nat) : Bool :=
  lines[i]?.any fun line => (trim line).isEmpty

/--
Decide whether a line bounds a block. This holds if it declares a member, or if it is blank and the
line in front of it is blank or missing.
-/
def isBoundary (i : Nat) : Bool :=
  ((meaningAt? style lines i).bind Meaning.declaration?).isSome
    || (isBlankAt lines i && (i == 0 || isBlankAt lines (i - 1)))

/--
The index behind the last boundary in front of a line, or zero if there is no boundary.
-/
def blockStart (i : Nat) : Nat :=
  Nat.findGreatest (fun start => isBoundary style lines (start - 1)) i

/--
The meanings of the lines between the last boundary in front of a line and this line.
-/
def blockMeanings (i : Nat) : List Meaning :=
  (List.Ico (blockStart style lines i) i).filterMap (meaningAt? style lines)

/--
The block in front of a line.
-/
def blockDoc (i : Nat) : Doc :=
  Doc.ofMeanings (blockMeanings style lines i)

end

variable {style : ReturnStyle} {lines : List (List Char)} {i : Nat}

theorem meaningAt?_of_lt (h : i < lines.length) :
    meaningAt? style lines i = Meaning.ofLine? style (trim lines[i]) := by
  simp [meaningAt?, h]

theorem meaningAt?_of_le (h : lines.length ≤ i) : meaningAt? style lines i = none := by
  simp [meaningAt?, h]

theorem lt_length_of_meaningAt? {m : Meaning} (h : meaningAt? style lines i = some m) :
    i < lines.length := by
  by_contra hle
  rw [meaningAt?_of_le (by omega)] at h
  contradiction

theorem isBlankAt_of_lt (h : i < lines.length) :
    isBlankAt lines i = (trim lines[i]).isEmpty := by
  simp [isBlankAt, h]

theorem meaningAt?_of_isBlankAt (h : isBlankAt lines i = true) :
    meaningAt? style lines i = none := by
  obtain ⟨line, hline, hblank⟩ := (Option.any_eq_true ..).1 h
  rw [meaningAt?, hline, Option.bind_some, List.isEmpty_iff.1 hblank]
  apply Meaning.ofLine?_nil

theorem hasTrimmedText_of_meaningAt? {m : Meaning} (h : meaningAt? style lines i = some m) :
    m.HasTrimmedText := by
  obtain ⟨line, -, hm⟩ := Option.bind_eq_some_iff.1 h
  exact Meaning.hasTrimmedText_of_ofLine? (trimEnd_trim line) hm

theorem hasTrimmedText_of_mem_blockMeanings {m : Meaning}
    (h : m ∈ blockMeanings style lines i) : m.HasTrimmedText := by
  obtain ⟨j, -, hm⟩ := List.mem_filterMap.1 h
  exact hasTrimmedText_of_meaningAt? hm

theorem blockStart_succ :
    blockStart style lines (i + 1)
      =
    if isBoundary style lines i then i + 1 else blockStart style lines i := by
  simp [blockStart, Nat.findGreatest_succ]

theorem blockStart_le : blockStart style lines i ≤ i := by
  apply Nat.findGreatest_le

theorem blockMeanings_succ_of_isBoundary (h : isBoundary style lines i = true) :
    blockMeanings style lines (i + 1) = [] := by
  simp [blockMeanings, blockStart_succ, h]

theorem blockMeanings_succ (h : isBoundary style lines i = false) :
    blockMeanings style lines (i + 1)
      =
    blockMeanings style lines i ++ (meaningAt? style lines i).toList := by
  have hstart : blockStart style lines (i + 1) = blockStart style lines i := by
    simp [blockStart_succ, h]
  unfold blockMeanings
  rw [hstart, List.Ico.succ_top blockStart_le, List.filterMap_append]
  cases h : meaningAt? style lines i <;> simp [h]

theorem blockDoc_succ_of_isBoundary (h : isBoundary style lines i = true) :
    blockDoc style lines (i + 1) = {} := by
  rw [blockDoc, blockMeanings_succ_of_isBoundary h, Doc.ofMeanings_nil]

theorem blockDoc_succ_of_none (h : isBoundary style lines i = false)
    (hm : meaningAt? style lines i = none) :
    blockDoc style lines (i + 1) = blockDoc style lines i := by
  rw [blockDoc, blockMeanings_succ h, hm, Option.toList_none, List.append_nil, blockDoc]

theorem blockDoc_succ {m : Meaning} (h : isBoundary style lines i = false)
    (hm : meaningAt? style lines i = some m) :
    blockDoc style lines (i + 1) = (blockDoc style lines i).extend m := by
  rw [blockDoc, blockMeanings_succ h, hm, Option.toList_some, blockDoc]
  rw [Doc.extend_ofMeanings]
  · intro m hmem
    exact hasTrimmedText_of_mem_blockMeanings hmem
  · exact hasTrimmedText_of_meaningAt? hm

end Extraction
end LuaCodex
