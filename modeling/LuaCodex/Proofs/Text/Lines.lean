import LuaCodex.Text.Cut

/-!
This module contains the theory of lines: no line has a line break in it, and the lines of joined
texts are those of the single texts.
-/

namespace LuaCodex
namespace Text

theorem of_mem_splitOn {α : Type} [BEq α] [LawfulBEq α] {s piece : List α} {sep : α}
    (h : piece ∈ s.splitOn sep) : sep ∉ piece ∧ piece ⊆ s := by
  induction s generalizing piece with
  | nil => simp_all [List.splitOn_nil]
  | cons c s ih =>
    rw [List.splitOn_cons_eq_if_modifyHead] at h
    split at h
    · rcases List.mem_cons.1 h with rfl | hmem
      · simp
      · exact ⟨(ih hmem).1, List.subset_cons_of_subset c (ih hmem).2⟩
    · next hc =>
      -- The character in front belongs to the first piece.
      obtain ⟨first, rest, hsplit⟩ := List.exists_cons_of_ne_nil (List.splitOn_ne_nil sep s)
      rw [hsplit, List.modifyHead_cons] at h
      rw [hsplit] at ih
      rcases List.mem_cons.1 h with rfl | hmem
      · obtain ⟨hsep, hsubset⟩ := ih List.mem_cons_self
        rw [List.mem_cons, not_or]
        exact ⟨⟨fun heq => hc (beq_iff_eq.2 heq.symm), hsep⟩, List.cons_subset_cons c hsubset⟩
      · obtain ⟨hsep, hsubset⟩ := ih (List.mem_cons_of_mem _ hmem)
        exact ⟨hsep, List.subset_cons_of_subset c hsubset⟩

variable {s piece line : List Char} {pieces : List (List Char)}

theorem notMem_of_mem_lines (h : line ∈ lines s) : '\n' ∉ line :=
  (of_mem_splitOn h).1

theorem lines_of_notMem (h : '\n' ∉ s) : lines s = [s] := by
  apply List.splitOn_eq_singleton h

theorem lines_append (s t : List Char) : lines (s ++ '\n' :: t) = lines s ++ lines t := by
  apply List.splitOn_append_cons_self

theorem lines_intercalate (h : pieces ≠ []) :
    lines (['\n'].intercalate pieces) = pieces.flatMap lines := by
  induction pieces with
  | nil => contradiction
  | cons piece pieces ih =>
    by_cases hrest : pieces = []
    · simp [hrest]
    · rw [List.intercalate_cons_of_ne_nil hrest, List.append_assoc, List.singleton_append,
        lines_append, ih hrest, List.flatMap_cons]

theorem flatMap_lines_of_notMem (h : ∀ piece ∈ pieces, '\n' ∉ piece) :
    pieces.flatMap lines = pieces := by
  induction pieces with
  | nil => rfl
  | cons piece pieces ih =>
    rw [List.flatMap_cons, lines_of_notMem (h piece List.mem_cons_self), List.singleton_append]
    rw [ih fun p hp => h p (List.mem_cons_of_mem _ hp)]

end Text
end LuaCodex
