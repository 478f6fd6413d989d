import Mathlib.Data.List.DropRight
import LuaCodex.Proofs.Json.Written

/-!
This module contains the ends of written forms. A value that is not a number is read from the start
of a text as soon as it has been written, whatever stands behind it. The main statement is that such
a written form is part of a longer one only if nothing but space is missing.
-/

namespace LuaCodex
namespace Json

variable {v v' : Json} {s rest : List Char}

theorem Written.exists_scansAlone (h : Written v s) (hnumber : ∀ n, v ≠ .number n) :
    ∃ before form after, s = before ++ (form ++ after) ∧ IsGap before ∧ IsGap after
      ∧ ScansAlone v form := by
  have halone : ∀ {v form}, ScansAlone v form → ∃ before form' after,
      form = before ++ (form' ++ after) ∧ IsGap before ∧ IsGap after ∧ ScansAlone v form' := by
    intro v form hform
    exact ⟨[], form, [], by simp, isGap_nil, isGap_nil, hform⟩
  induction h with
  | null => exact halone scansAlone_null
  | bool b => exact halone (scansAlone_bool b)
  | number => exact absurd rfl (hnumber _)
  | string h => exact halone (scansAlone_string h)
  | emptyArray hgap => exact halone (scansAlone_emptyArray hgap)
  | array items hne h =>
    exact halone (scansAlone_array items hne h fun item hitem => (h item hitem).scansAs)
  | emptyObject hgap => exact halone (scansAlone_emptyObject hgap)
  | object members hne hkeys h =>
    exact halone (scansAlone_object members hne hkeys fun m hm => (h m hm).scansAs)
  | before hc h ih =>
    obtain ⟨before, form, after, rfl, hbefore, hafter, hform⟩ := ih hnumber
    exact ⟨_ :: before, form, after, rfl, List.forall_mem_cons.2 ⟨hc, hbefore⟩, hafter, hform⟩
  | @after v s c hc h ih =>
    obtain ⟨before, form, after, rfl, hbefore, hafter, hform⟩ := ih hnumber
    refine ⟨before, form, after ++ [c], by simp, hbefore, ?_, hform⟩
    exact List.forall_mem_append.2 ⟨hafter, by simpa using hc⟩

theorem Written.scan_append (h : Written v s) (hnumber : ∀ n, v ≠ .number n) (rest : List Char) :
    ∃ gap, Json.scan (s ++ rest) = (v, some (gap ++ rest)) := by
  obtain ⟨before, form, after, rfl, hbefore, -, hform⟩ := h.exists_scansAlone hnumber
  refine ⟨after, ?_⟩
  unfold Json.scan
  rw [List.append_assoc, ← scanValue_skipSpace, skipSpace_append hbefore, scanValue_skipSpace,
    List.append_assoc]
  apply hform
  simp only [List.length_append]
  omega

/--
A written form of a value other than a number can start another written form. Then both are written
forms of one value, and nothing but space follows the shorter one.
-/
theorem Written.eq_of_append (h : Written v s) (hnumber : ∀ n, v ≠ .number n)
    (h' : Written v' (s ++ rest)) : v' = v ∧ IsGap rest := by
  obtain ⟨gap, hscan⟩ := h.scan_append hnumber rest
  obtain ⟨gap', hgap', hscan'⟩ := h'.scan
  rw [hscan] at hscan'
  cases hscan'
  exact ⟨rfl, (List.forall_mem_append.1 hgap').2⟩

theorem exists_append_of_prefix {front : List Char} (h : front <+: s.rdropWhile isSpace)
    (hne : front ≠ s.rdropWhile isSpace) : ∃ back, s = front ++ back ∧ ¬ IsGap back := by
  obtain ⟨back, hback⟩ := h
  have hback' : back ≠ [] := by
    rintro rfl
    exact hne (by simpa using hback)
  have hlast := List.rdropWhile_last_not isSpace s (by simp [← hback, hback'])
  refine ⟨back ++ s.rtakeWhile isSpace, ?_, ?_⟩
  · rw [← List.append_assoc, hback, List.rdropWhile_append_rtakeWhile]
  · -- What is left without the space at the end ends in another character.
    intro hgap
    simp only [← hback, List.getLast_append_of_ne_nil _ hback'] at hlast
    exact hlast (hgap _ (List.mem_append_left _ (List.getLast_mem hback')))

end Json
end LuaCodex
