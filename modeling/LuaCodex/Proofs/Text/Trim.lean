import LuaCodex.Text.Blank

/-!
This module contains the theory of trimmed texts: what is left of them when something is cut off in
front, and how they can be told by their ends.
-/

namespace LuaCodex
namespace Text

/--
A text consists of white space.
-/
def AllBlank (s : List Char) : Prop :=
  ∀ c ∈ s, isBlank c = true

instance (s : List Char) : Decidable (AllBlank s) :=
  decidable_of_iff (s.all isBlank = true) List.all_eq_true

theorem trimStart_suffix (s : List Char) : trimStart s <:+ s := by
  unfold trimStart
  apply List.dropWhile_suffix

theorem trimEnd_eq_self_iff {s : List Char} :
    trimEnd s = s ↔ ∀ c, s.getLast? = some c → isBlank c = false := by
  rw [trimEnd, ← List.head?_reverse, List.reverse_eq_iff]
  cases s.reverse with
  | nil => simp
  | cons c t =>
    by_cases h : isBlank c = true
    · simp only [List.dropWhile_cons_of_pos h, List.head?_cons, Option.some.injEq, forall_eq', h,
        Bool.true_eq_false, iff_false]
      intro heq
      have hle := (List.dropWhile_suffix isBlank (l := t)).length_le
      rw [heq, List.length_cons] at hle
      omega
    · simp [List.dropWhile_cons_of_neg h, h]

theorem trimStart_eq_self_iff {s : List Char} :
    trimStart s = s ↔ ∀ c, s.head? = some c → isBlank c = false := by
  have h := trimEnd_eq_self_iff (s := s.reverse)
  simp only [trimEnd, List.reverse_reverse, List.reverse_inj, List.getLast?_reverse] at h
  exact h

theorem trimEnd_of_suffix {s t : List Char} (hs : trimEnd s = s) (h : t <:+ s) :
    trimEnd t = t := by
  rw [trimEnd_eq_self_iff] at hs ⊢
  intro c hc
  apply hs
  obtain ⟨front, rfl⟩ := h
  rw [List.getLast?_append, hc]
  rfl

theorem trimEnd_trim (s : List Char) : trimEnd (trim s) = trim s := by
  unfold trim
  apply trimEnd_trimEnd

theorem trimEnd_prefix (s : List Char) : trimEnd s <+: s := by
  unfold trimEnd
  rw [← List.reverse_suffix, List.reverse_reverse]
  apply List.dropWhile_suffix

theorem trimStart_trim (s : List Char) : trimStart (trim s) = trim s := by
  have hstart := trimStart_eq_self_iff.1 (trimStart_trimStart s)
  rw [trimStart_eq_self_iff]
  intro c hc
  apply hstart
  obtain ⟨back, hback⟩ := trimEnd_prefix (trimStart s)
  rw [← hback, List.head?_append, ← trim, hc]
  rfl

theorem trim_eq_self_iff {s : List Char} : trim s = s ↔ trimStart s = s ∧ trimEnd s = s := by
  constructor
  · intro h
    rw [← h]
    exact ⟨trimStart_trim s, trimEnd_trim s⟩
  · intro ⟨hstart, hend⟩
    rw [trim, hstart, hend]

theorem trim_trim (s : List Char) : trim (trim s) = trim s :=
  trim_eq_self_iff.2 ⟨trimStart_trim s, trimEnd_trim s⟩

theorem trimStart_subset (s : List Char) : trimStart s ⊆ s :=
  (trimStart_suffix s).subset

theorem trim_subset (s : List Char) : trim s ⊆ s := by
  have hfront := trimEnd_prefix (trimStart s)
  intro c hc
  apply trimStart_subset
  exact hfront.subset hc

theorem trim_trimStart_of_suffix {s t : List Char} (hs : trimEnd s = s) (h : t <:+ s) :
    trim (trimStart t) = trimStart t := by
  rw [trim_eq_self_iff]
  refine ⟨trimStart_trimStart t, trimEnd_of_suffix hs ?_⟩
  exact (trimStart_suffix t).trans h

theorem trim_append_of_ne_nil {s t : List Char} (middle : List Char) (hs : trim s = s)
    (ht : trim t = t) (hs' : s ≠ []) (ht' : t ≠ []) :
    trim (s ++ middle ++ t) = s ++ middle ++ t := by
  rw [trim_eq_self_iff, trimStart_eq_self_iff, trimEnd_eq_self_iff] at hs ht ⊢
  constructor
  · intro c hc
    apply hs.1
    cases s with
    | nil => exact absurd rfl hs'
    | cons d s => simpa using hc
  · intro c hc
    apply ht.2
    rw [List.getLast?_append] at hc
    cases h : t.getLast? with
    | none => simp_all
    | some d => simpa [h] using hc

theorem trimStart_cons_of_isBlank {c : Char} (h : isBlank c = true) (s : List Char) :
    trimStart (c :: s) = trimStart s := by
  unfold trimStart
  rw [List.dropWhile_cons_of_pos h]

theorem trimStart_cons_of_not_isBlank {c : Char} (h : isBlank c = false) (s : List Char) :
    trimStart (c :: s) = c :: s := by
  unfold trimStart
  rw [List.dropWhile_cons_of_neg (by simpa using h)]

theorem trimEnd_concat_of_isBlank {c : Char} (h : isBlank c = true) (s : List Char) :
    trimEnd (s ++ [c]) = trimEnd s := by
  unfold trimEnd
  rw [List.reverse_append, List.reverse_singleton, List.singleton_append,
    List.dropWhile_cons_of_pos h]

theorem trimStart_append {gap : List Char} (h : AllBlank gap) (s : List Char) :
    trimStart (gap ++ s) = trimStart s := by
  exact List.dropWhile_append_of_pos h

theorem exists_allBlank_append (s : List Char) :
    ∃ gap, AllBlank gap ∧ s = gap ++ trimStart s := by
  refine ⟨s.takeWhile isBlank, ?_, List.takeWhile_append_dropWhile.symm⟩
  intro c hc
  exact List.all_eq_true.1 List.all_takeWhile c hc

theorem append_inj_of_allBlank {gap gap' s s' : List Char} (hgap : AllBlank gap)
    (hgap' : AllBlank gap') (hs : trimStart s = s) (hs' : trimStart s' = s')
    (h : gap ++ s = gap' ++ s') : gap = gap' ∧ s = s' := by
  have htrim := congrArg trimStart h
  rw [trimStart_append hgap, trimStart_append hgap', hs, hs'] at htrim
  subst htrim
  exact ⟨List.append_cancel_right h, rfl⟩

end Text
end LuaCodex
