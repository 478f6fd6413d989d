import LuaCodex.Codex.Json
import LuaCodex.Proofs.Json.Print
import LuaCodex.Supplement.Reading

/-!
This module contains facts on the JSON that is written for a codex: no part of it is a number or a
fault, and what stands in it for a method or an event is not nested deeper than it may be.
-/

namespace LuaCodex

open Json

namespace Json

/--
The value may be kept where values can be nested as deep as there is `room`.
-/
def Fits (room : Nat) (v : Json) : Prop :=
  keep room v = .ok ()

theorem fits_ofText (room : Nat) (text : String) : Fits room (.ofText text) := by
  simp only [Fits, ofText, keep, Quoted.text_ofText]
  rfl

theorem keepItems_eq_ok {room : Nat} {items : List Json}
    (h : ∀ item ∈ items, Fits room item) : keepItems room items = .ok () := by
  induction items with
  | nil => rfl
  | cons item items ih =>
    rw [List.forall_mem_cons] at h
    have hitem : keep room item = .ok () := h.1
    simp only [keepItems, hitem]
    exact ih h.2

theorem fits_array {room : Nat} {items : List Json} (h : ∀ item ∈ items, Fits room item) :
    Fits (room + 1) (.array items) := by
  simp only [Fits, keep]
  exact keepItems_eq_ok h

theorem keepMembers_eq_ok {room : Nat} {members : List (String × Json)}
    (h : ∀ m ∈ members, Fits room m.2) :
    keepMembers room (members.map fun (key, value) => (.ofText key, value)) = .ok () := by
  induction members with
  | nil => rfl
  | cons m members ih =>
    rw [List.forall_mem_cons] at h
    have hmember : keep room m.2 = .ok () := h.1
    simp only [List.map_cons, keepMembers, Quoted.text_ofText, hmember]
    exact ih h.2

theorem fits_ofMembers {room : Nat} {members : List (String × Json)}
    (h : ∀ m ∈ members, Fits room m.2) : Fits (room + 1) (.ofMembers members) := by
  simp only [Fits, ofMembers, keep]
  exact keepMembers_eq_ok h

end Json

section
variable {P : Json → Prop}

theorem forall_mem_optionalMember {α : Type} {encode : α → Json} (h : ∀ v, P (encode v))
    (name : String) (value : Option α) : ∀ m ∈ optionalMember name encode value, P m.2 := by
  cases value with
  | none => simp [optionalMember]
  | some v => simpa [optionalMember] using h v

theorem Doc.forall_mem_toMembers {doc : Doc} (hbool : ∀ b, P (.bool b))
    (htext : ∀ text, P (.ofText text)) (hparams : P (.array (doc.params.map Param.toJson)))
    (hreturns : P (.array (doc.returns.map Return.toJson))) : ∀ m ∈ doc.toMembers, P m.2 := by
  unfold toMembers
  rw [List.forall_mem_append]
  constructor
  · apply forall_mem_optionalMember hbool
  · simp [htext, hparams, hreturns]

theorem forall_mem_toList_map {α : Type} {encode : α → Json} (h : ∀ entry, P (encode entry))
    (table : Table α) :
    ∀ m ∈ table.toList.map (fun (name, entry) => (name, encode entry)), P m.2 := by
  intro m hm
  obtain ⟨p, -, rfl⟩ := List.mem_map.mp hm
  exact h p.2

end

theorem Param.fits_toJson (room : Nat) (p : Param) : Fits (room + 1) p.toJson := by
  apply fits_ofMembers
  simp [fits_ofText]

theorem Return.fits_toJson (room : Nat) (r : Return) : Fits (room + 1) r.toJson := by
  apply fits_ofMembers
  rw [List.cons_append, List.forall_mem_cons, List.forall_mem_append]
  refine ⟨fits_ofText _ _, ?_, ?_⟩
  · apply forall_mem_optionalMember
    apply fits_ofText
  · simp [fits_ofText]

theorem Doc.fits_toMembers (doc : Doc) : ∀ m ∈ doc.toMembers, Fits memberRoom m.2 := by
  apply Doc.forall_mem_toMembers
  · intro b
    rfl
  · apply fits_ofText
  · apply fits_array
    rw [List.forall_mem_map]
    intro p _
    apply Param.fits_toJson
  · apply fits_array
    rw [List.forall_mem_map]
    intro r _
    apply Return.fits_toJson

theorem Param.plain_toJson (p : Param) : p.toJson.Plain := by
  apply Plain.ofMembers
  simp [Plain.ofText]

theorem Return.plain_toJson (r : Return) : r.toJson.Plain := by
  apply Plain.ofMembers
  rw [List.cons_append, List.forall_mem_cons, List.forall_mem_append]
  refine ⟨.ofText _, ?_, ?_⟩
  · apply forall_mem_optionalMember
    apply Plain.ofText
  · simp [Plain.ofText]

theorem Doc.plain_toMembers (doc : Doc) : ∀ m ∈ doc.toMembers, m.2.Plain := by
  apply Doc.forall_mem_toMembers
  · apply Plain.bool
  · apply Plain.ofText
  · apply Plain.array
    rw [List.forall_mem_map]
    intro p _
    apply Param.plain_toJson
  · apply Plain.array
    rw [List.forall_mem_map]
    intro r _
    apply Return.plain_toJson

theorem Method.plain_toJson (m : Method) : m.toJson.Plain := by
  apply Plain.ofMembers
  rw [List.forall_mem_cons]
  exact ⟨.bool _, m.doc.plain_toMembers⟩

theorem Event.plain_toJson (e : Event) : e.toJson.Plain := by
  apply Plain.ofMembers
  exact e.doc.plain_toMembers

theorem Table.plain_toJson {α : Type} {encode : α → Json} (h : ∀ entry, (encode entry).Plain)
    (table : Table α) : (table.toJson encode).Plain := by
  apply Plain.ofMembers
  exact forall_mem_toList_map h table

theorem ApiClass.plain_toJson (c : ApiClass) : c.toJson.Plain := by
  apply Plain.ofMembers
  rw [List.forall_mem_append]
  constructor
  · apply forall_mem_optionalMember
    apply Plain.ofText
  · simp [Table.plain_toJson, Method.plain_toJson, Event.plain_toJson]

theorem Global.plain_toJson (g : Global) : g.toJson.Plain := by
  apply Plain.ofMembers
  simp [Plain.ofText]

theorem Codex.plain_toJson (c : Codex) : c.toJson.Plain := by
  apply Plain.ofMembers
  simp [Table.plain_toJson, ApiClass.plain_toJson, Global.plain_toJson]

end LuaCodex
