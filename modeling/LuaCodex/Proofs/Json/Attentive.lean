import LuaCodex.Proofs.Json.Check

/-!
This module contains the attention that typed reading pays to a value: no part of the value is
broken if it can be read.
-/

namespace LuaCodex
namespace Json

/--
Only values that are not broken are read.
-/
def Attentive {α : Type} (read : Json → Reading α) : Prop :=
  ∀ v x, read v = .ok x → skim v = .ok ()

variable {α β σ : Type} {read : Json → Reading α} {items : List Json}
variable {members : List (Quoted × Json)} {key : Quoted}

theorem Quoted.fault_of_read {text : String} (h : key.read = .ok text) : key.fault = none := by
  exact fault_of_text (mapError_eq_ok_iff.1 h)

theorem attentive_readString : Attentive readString := by
  intro v x h
  cases v with
  | string s => exact Quoted.skim_eq_ok_iff.2 (Quoted.fault_of_read h)
  | _ => simp [readString] at h

theorem attentive_readBool : Attentive readBool := by
  intro v x h
  cases v with
  | bool b => rfl
  | _ => simp [readBool] at h

theorem Attentive.map (h : Attentive read) (f : α → β) : Attentive fun v => (read v).map f := by
  intro v x hread
  obtain ⟨y, hy, -⟩ := map_eq_ok_iff.1 hread
  exact h v y hy

theorem Attentive.readOption (h : Attentive read) : Attentive (readOption read) := by
  intro v x hread
  cases v with
  | null => rfl
  | _ => exact h.map some _ x hread

theorem skimMembers_cons_eq_ok_iff {v : Json} :
    skimMembers ((key, v) :: members) = .ok ()
      ↔
    key.fault = none ∧ skim v = .ok () ∧ skimMembers members = .ok () := by
  rw [skimMembers, check_bind_eq_ok_iff, check_bind_eq_ok_iff, Quoted.skim_eq_ok_iff]

theorem attentive_readTable {read : String → Json → Reading α} (h : ∀ name, Attentive (read name)) :
    Attentive (readTable read) := by
  intro v table hread
  cases v with
  | object members =>
    have hgo : ∀ start, readTable.go read start members = .ok table →
        skimMembers members = .ok () := by
      clear hread
      induction members with
      | nil => exact fun _ _ => rfl
      | cons m members ih =>
        intro start hread
        simp only [readTable.go, bind_eq_ok_iff] at hread
        obtain ⟨name, hname, entry, hentry, hrest⟩ := hread
        exact skimMembers_cons_eq_ok_iff.2
          ⟨Quoted.fault_of_read hname, h name m.2 entry hentry, ih _ hrest⟩
    exact hgo ∅ hread
  | _ => simp [readTable] at hread

namespace RecordFormat

variable {format : RecordFormat σ} {other : Json → Except Fault Unit}

theorem skimMembers_of_go {record : σ} {seen : List String} {r : σ × List String}
    (hfields : ∀ field ∈ format.fields, Attentive field.read)
    (hother : ∀ v, other v = .ok () → skim v = .ok ())
    (h : readMembers.go format other record seen members = .ok r) :
    skimMembers members = .ok () := by
  induction members generalizing record seen with
  | nil => rfl
  | cons m members ih =>
    rw [skimMembers_cons_eq_ok_iff]
    obtain ⟨name, hname, ⟨field, set, hfind, -, hread, h⟩ | ⟨-, hv, h⟩⟩ := go_cons_eq_ok_iff.1 h
    · have hfield := hfields field (List.mem_of_find?_eq_some hfind)
      exact ⟨Quoted.fault_of_read hname, hfield m.2 set hread, ih h⟩
    · exact ⟨Quoted.fault_of_read hname, hother m.2 hv, ih h⟩

theorem skimMembers_of_readObject {record : σ}
    (hfields : ∀ field ∈ format.fields, Attentive field.read)
    (hother : ∀ v, other v = .ok () → skim v = .ok ())
    (h : format.readObject other members = .ok record) : skimMembers members = .ok () := by
  obtain ⟨seen, hgo, -⟩ := readObject_eq_ok_iff.1 h
  exact skimMembers_of_go hfields hother hgo

theorem skimItems_of_go {whole : List Json} {fields : List (Field σ)} {record r : σ}
    (hfields : ∀ field ∈ fields, Attentive field.read)
    (h : readItems.go format noExcess whole record fields items = .ok r) :
    skimItems items = .ok () := by
  induction fields generalizing record items with
  | nil =>
    cases items with
    | nil => rfl
    | cons item items =>
      simp only [readItems.go, check_bind_eq_ok_iff] at h
      have hexcess := h.1
      unfold noExcess at hexcess
      split at hexcess <;> contradiction
  | cons field fields ih =>
    cases items with
    | nil => rfl
    | cons item items =>
      rw [List.forall_mem_cons] at hfields
      simp only [readItems.go, bind_eq_ok_iff] at h
      obtain ⟨set, hread, h⟩ := h
      rw [skimItems, check_bind_eq_ok_iff]
      exact ⟨hfields.1 item set hread, ih hfields.2 h⟩

theorem attentive_read (hfields : ∀ field ∈ format.fields, Attentive field.read) :
    Attentive format.read := by
  intro v record h
  cases v with
  | object members => exact skimMembers_of_readObject hfields (fun _ => id) h
  | array items => exact skimItems_of_go hfields h
  | _ => simp [RecordFormat.read] at h

end RecordFormat
end Json
end LuaCodex
