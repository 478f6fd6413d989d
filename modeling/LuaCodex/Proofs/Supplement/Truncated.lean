import LuaCodex.Proofs.Codex.Json
import LuaCodex.Proofs.Json.Truncated
import LuaCodex.Proofs.Supplement.Written

/-!
This module contains the supplements that break off. The main statement is that a text is not read
as a supplement if something other than space is missing at its end.
-/

namespace LuaCodex

open Json RecordFormat

theorem Codex.exists_print_toJson (c : Codex) : ∃ body, c.toJson.print 0 = body ++ ['\x7d'] := by
  exact ⟨_, rfl⟩

namespace Supplement

variable {v : Json} {supplement : Supplement} {text : String} {front back : List Char}

theorem ne_number_of_read (h : format.read v = .ok supplement) (n : Numeral) : v ≠ .number n := by
  rintro rfl
  contradiction

/--
A text in which the end of a written form is missing is not read as a supplement.
-/
theorem exists_ofJson_eq_error (h : Written v (front ++ back)) (hback : ¬ IsGap back) :
    ∃ reason, ofJson (String.ofList front) = .error reason := by
  cases hread : ofJson (String.ofList front) with
  | error reason => exact ⟨reason, rfl⟩
  | ok supplement =>
    obtain ⟨v', hwritten, hread⟩ := ofJson_eq_ok_iff.1 hread
    rw [String.toList_ofList] at hwritten
    exact absurd (hwritten.eq_of_append (ne_number_of_read hread) h).2 hback

/--
A text that is read as a supplement ends where the supplement ends, up to space: no part of it that
is shorter is read as a supplement. The text of a codex is not read without its last brace.
-/
theorem ofJson_of_truncated :
    (∀ (text : String) (supplement : Supplement), ofJson text = .ok supplement →
        ∀ front, front <+: text.toList.rdropWhile isSpace →
        front ≠ text.toList.rdropWhile isSpace →
        ∃ reason, ofJson (String.ofList front) = .error reason)
      ∧ ∀ c : Codex, ∃ body, c.toJsonText.toList = body ++ ['\x7d', '\n']
        ∧ ∀ front, front <+: body → ∃ reason, ofJson (String.ofList front) = .error reason := by
  constructor
  · intro text supplement h front hprefix hne
    obtain ⟨v, hwritten, -⟩ := ofJson_eq_ok_iff.1 h
    obtain ⟨back, hback, hgap⟩ := exists_append_of_prefix hprefix hne
    rw [hback] at hwritten
    exact exists_ofJson_eq_error hwritten hgap
  · intro c
    obtain ⟨body, hbody⟩ := c.exists_print_toJson
    refine ⟨body, by simp [Codex.toJsonText, hbody], ?_⟩
    rintro front ⟨back, rfl⟩
    have hwritten := c.plain_toJson.written 0
    rw [hbody, List.append_assoc] at hwritten
    apply exists_ofJson_eq_error hwritten
    simp [IsGap, isSpace, or_imp, forall_and]

theorem ofJson_of_truncated_global :
    let v := Json.ofMembers [("globals", .ofMembers
      [("a\"b", .ofMembers [("x", .array [.null]), ("type", .ofText "n")])])]
    let text := String.ofList (v.print 0 ++ [' ', '\n'])
    let supplement : Supplement := { globals := (∅ : Table Global).insert "a\"b" { type := "n" } }
    ofJson text = .ok supplement
      ∧ text.toList.rdropWhile isSpace = v.print 0
      ∧ ∀ front, front <+: v.print 0 → front ≠ v.print 0 →
        ∃ reason, ofJson (String.ofList front) = .error reason := by
  intro v text supplement
  have hplain : Plain v := by
    refine .ofMembers _ (List.forall_mem_singleton.2 ?_)
    refine .ofMembers _ (List.forall_mem_singleton.2 ?_)
    exact .ofMembers _ (by simp [Plain.array, Plain.null, Plain.ofText])
  have hwritten : Written v text.toList := by
    rw [String.toList_ofList]
    exact (hplain.written 0).append_gap (by simp [IsGap, isSpace])
  have hread : ofJson text = .ok supplement := by
    rw [ofJson_of_written hwritten]
    simp [v, supplement, ofMembers, RecordFormat.read, readObject, readMembers, readMembers.go,
      format, Field.of, readTable, readTable.go, Global.format, skim, skimItems]
  have hspace : text.toList.rdropWhile isSpace = v.print 0 := by
    decide
  refine ⟨hread, hspace, ?_⟩
  intro front hprefix hne
  rw [← hspace] at hprefix hne
  exact ofJson_of_truncated.1 text supplement hread front hprefix hne

end Supplement
end LuaCodex
