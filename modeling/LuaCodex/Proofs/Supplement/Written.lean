import LuaCodex.Proofs.Json.Attentive
import LuaCodex.Proofs.Json.Taken
import LuaCodex.Supplement.Reading

/-!
This module contains the texts that are read as supplements. The main statement is that they are the
written forms of the values that are read as supplements.
-/

namespace LuaCodex

open Json RecordFormat

theorem Method.attentive_read : Attentive Method.read := by
  intro v m h
  cases v with
  | object members =>
    simp only [Method.read, bind_eq_ok_iff] at h
    obtain ⟨isStatic, hstatic, -⟩ := h
    refine skimMembers_of_readObject ?_ (fun v hv => (keep_eq_ok_iff.1 hv).1) hstatic
    intro field hfield
    simp only [format, List.mem_singleton] at hfield
    subst hfield
    exact attentive_readBool.map _
  | _ => simp [Method.read] at h

theorem Event.attentive_read : Attentive Event.read := by
  intro v e h
  cases v with
  | object members =>
    have hempty := (check_bind_eq_ok_iff.1 h).1
    refine skimMembers_of_readObject ?_ (fun v hv => (keep_eq_ok_iff.1 hv).1) hempty
    simp [format]
  | _ => simp [Event.read] at h

theorem ApiClass.attentive_read (name : String) : Attentive (ApiClass.read name) := by
  refine Attentive.map (RecordFormat.attentive_read ?_) _
  intro field hfield
  simp only [format, List.mem_cons, List.not_mem_nil, or_false] at hfield
  rcases hfield with rfl | rfl | rfl
  · exact attentive_readString.readOption.map _
  · exact (attentive_readTable fun _ => Method.attentive_read).map _
  · exact (attentive_readTable fun _ => Event.attentive_read).map _

theorem Global.attentive_read : Attentive Global.format.read := by
  refine RecordFormat.attentive_read ?_
  intro field hfield
  simp only [format, List.mem_singleton] at hfield
  subst hfield
  exact attentive_readString.map _

namespace Supplement

theorem attentive_read : Attentive format.read := by
  refine RecordFormat.attentive_read ?_
  intro field hfield
  simp only [format, List.mem_cons, List.not_mem_nil, or_false] at hfield
  rcases hfield with rfl | rfl
  · exact (attentive_readTable ApiClass.attentive_read).map _
  · exact (attentive_readTable fun _ => Global.attentive_read).map _

variable {text : String} {v : Json} {supplement : Supplement}

theorem ofJson_of_written (h : Written v text.toList) : ofJson text = format.read v := by
  obtain ⟨gap, hgap, hscan⟩ := h.scan
  have hskip := skipSpace_eq_nil_iff.2 hgap
  unfold ofJson ofScan
  simp only [hscan, Option.all_some, hskip]
  cases format.read v <;> rfl

/--
A text is read as a supplement if and only if it is a written form of a value that is read as one.
-/
theorem ofJson_eq_ok_iff :
    ofJson text = .ok supplement
      ↔
    ∃ v, Written v text.toList ∧ format.read v = .ok supplement := by
  constructor
  · intro h
    obtain ⟨read, hread, h⟩ := bind_eq_ok_iff.1 h
    rcases hscan : scan text.toList with ⟨v, _ | rest⟩
    · -- A value in which reading breaks off is not read.
      rw [hscan] at hread
      exact absurd (attentive_read v read hread) (skim_of_scan hscan)
    · rw [hscan] at hread h
      split at h
      · next hrest =>
        cases h
        obtain ⟨form, hform, hwritten⟩ := exists_written_of_scan hscan
        have hgap : IsGap rest := skipSpace_eq_nil_iff.1 (by simpa using hrest)
        refine ⟨v, ?_, hread⟩
        rw [hform]
        exact hwritten.append_gap hgap
      · contradiction
  · rintro ⟨v, hwritten, hread⟩
    rw [ofJson_of_written hwritten, hread]

end Supplement
end LuaCodex
