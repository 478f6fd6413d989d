import LuaCodex.Proofs.Json.Check
import LuaCodex.Proofs.Json.Taken

/-!
This module contains changes of JSON values that keep their meaning: another order of the members of
an object, and members that are no fields. The main statements are that the changed value can be
written if the value can, and that it can be kept if the value can.
-/

namespace LuaCodex
namespace Json

/--
The way in which a value is read.
-/
inductive Shape where
  /-- A value without objects in it. -/
  | leaf
  | list (item : Shape)
  | table (entry : Shape)
  /-- A record with its fields in the order in which an array lists them. -/
  | record (fields : List (String × Shape))
  /-- A value that is checked to be kept, with some room for levels, before it is read. -/
  | kept (room : Nat) (shape : Shape)

namespace Shape

/--
Decide whether a value is read as a record or as a table if it is an object.
-/
def readsObject : Shape → Bool
  | table _ | record _ => true
  | _ => false

/--
The shape of the member with a key.
-/
def member? : Shape → String → Option Shape
  | table entry, _ => some entry
  | record fields, name => fields.lookup name
  | _, _ => none

/--
The shape of the item at a place.
-/
def item? : Shape → Nat → Option Shape
  | list item, _ => some item
  | record fields, place => fields[place]?.map (·.2)
  | _, _ => none

end Shape

/--
A value has a written form.
-/
def Writable (v : Json) : Prop :=
  ∃ s, Written v s

/--
A key has a written form.
-/
def Quoted.Writable (key : Quoted) : Prop :=
  ∃ s, WrittenKey key s

/--
A value is valid JSON. If there is a limit to the room for levels, it can be kept there.
-/
structure Ignorable (limit : Option Nat) (v : Json) : Prop where
  writable : v.Writable
  keepable : ∀ room ∈ limit, Keepable room v

/--
The limit for the items of an array or the members of an object.
-/
def inside (limit : Option Nat) : Option Nat :=
  limit.map (· - 1)

/--
A change of a value that is read with some shape. At one place, the members of an object are put
into another order, or a member is inserted that is no field of a record.
-/
inductive Rearranged : Option Nat → Shape → Json → Json → Prop
  | order {limit : Option Nat} {shape : Shape} {members members' : List (Quoted × Json)}
    (hshape : shape.readsObject = true) (hdistinct : (members.map (·.1.text)).Nodup)
    (h : members.Perm members') : Rearranged limit shape (.object members) (.object members')
  | extra {limit : Option Nat} {fields : List (String × Shape)} {front back : List (Quoted × Json)}
    {key : Quoted} {name : String} {value : Json} (hkey : key.text = .ok name)
    (hwritable : key.Writable) (hname : ∀ field ∈ fields, field.1 ≠ name)
    (hvalue : Ignorable (inside limit) value) :
    Rearranged limit (.record fields) (.object (front ++ back))
      (.object (front ++ (key, value) :: back))
  | member {limit : Option Nat} {shape part : Shape} {front back : List (Quoted × Json)}
    {key : Quoted} {name : String} {v v' : Json} (hkey : key.text = .ok name)
    (hpart : shape.member? name = some part) (h : Rearranged (inside limit) part v v') :
    Rearranged limit shape (.object (front ++ (key, v) :: back))
      (.object (front ++ (key, v') :: back))
  | item {limit : Option Nat} {shape part : Shape} {front back : List Json} {v v' : Json}
    (hpart : shape.item? front.length = some part) (h : Rearranged (inside limit) part v v') :
    Rearranged limit shape (.array (front ++ v :: back)) (.array (front ++ v' :: back))
  | kept {room : Nat} {shape : Shape} {v v' : Json} (h : Rearranged (some room) shape v v') :
    Rearranged none (.kept room shape) v v'

variable {limit : Option Nat} {room : Nat} {shape : Shape} {v v' : Json} {s : List Char}
variable {items : List Json} {members members' : List (Quoted × Json)}

theorem exists_writtenItems (h : ∀ item ∈ items, Writable item) :
    ∃ parts : List (Json × List Char), parts.map (·.1) = items
      ∧ ∀ part ∈ parts, Written part.1 part.2 := by
  induction items with
  | nil => exact ⟨[], rfl, by simp⟩
  | cons item items ih =>
    rw [List.forall_mem_cons] at h
    obtain ⟨form, hform⟩ := h.1
    obtain ⟨parts, rfl, hparts⟩ := ih h.2
    exact ⟨(item, form) :: parts, rfl, List.forall_mem_cons.2 ⟨hform, hparts⟩⟩

theorem exists_writtenMembers (h : ∀ m ∈ members, m.1.Writable ∧ Writable m.2) :
    ∃ parts : List WrittenMember, parts.map (fun part => (part.key, part.value)) = members
      ∧ ∀ part ∈ parts, WrittenKey part.key part.keyText ∧ Written part.value part.valueText := by
  induction members with
  | nil => exact ⟨[], rfl, by simp⟩
  | cons m members ih =>
    rw [List.forall_mem_cons] at h
    obtain ⟨⟨keyForm, hkey⟩, form, hform⟩ := h.1
    obtain ⟨parts, rfl, hparts⟩ := ih h.2
    exact ⟨⟨m.1, keyForm, m.2, form⟩ :: parts, rfl,
      List.forall_mem_cons.2 ⟨⟨hkey, hform⟩, hparts⟩⟩

theorem writable_array_iff : Writable (.array items) ↔ ∀ item ∈ items, Writable item := by
  constructor
  · rintro ⟨s, h⟩
    generalize hv : Json.array items = v at h
    induction h with
    | emptyArray hgap => simp_all
    | array parts hne h =>
      cases hv
      rw [List.forall_mem_map]
      exact fun part hpart => ⟨_, h part hpart⟩
    | before hc h ih | after hc h ih => exact ih hv
    | _ => contradiction
  · intro h
    obtain ⟨parts, rfl, hparts⟩ := exists_writtenItems h
    by_cases hne : parts = []
    · subst hne
      exact ⟨_, .emptyArray isGap_nil⟩
    · exact ⟨_, .array parts hne hparts⟩

theorem writable_object_iff :
    Writable (.object members) ↔ ∀ m ∈ members, m.1.Writable ∧ Writable m.2 := by
  constructor
  · rintro ⟨s, h⟩
    generalize hv : Json.object members = v at h
    induction h with
    | emptyObject hgap => simp_all
    | object parts hne hkeys h =>
      cases hv
      rw [List.forall_mem_map]
      exact fun part hpart => ⟨⟨_, hkeys part hpart⟩, _, h part hpart⟩
    | before hc h ih | after hc h ih => exact ih hv
    | _ => contradiction
  · intro h
    obtain ⟨parts, rfl, hparts⟩ := exists_writtenMembers h
    by_cases hne : parts = []
    · subst hne
      exact ⟨_, .emptyObject isGap_nil⟩
    · exact ⟨_, .object parts hne (fun part hpart => (hparts part hpart).1)
        fun part hpart => (hparts part hpart).2⟩

theorem Rearranged.writable (h : Rearranged limit shape v v') (hv : v.Writable) : v'.Writable := by
  induction h with
  | order hshape hdistinct h =>
    rw [writable_object_iff] at hv ⊢
    exact fun m hm => hv m (h.mem_iff.2 hm)
  | extra hkey hwritable hname hvalue =>
    rw [writable_object_iff, List.forall_mem_append] at hv ⊢
    rw [List.forall_mem_cons]
    exact ⟨hv.1, ⟨hwritable, hvalue.writable⟩, hv.2⟩
  | member hkey hpart h ih =>
    rw [writable_object_iff, List.forall_mem_append, List.forall_mem_cons] at hv ⊢
    exact ⟨hv.1, ⟨hv.2.1.1, ih hv.2.1.2⟩, hv.2.2⟩
  | item hpart h ih =>
    rw [writable_array_iff, List.forall_mem_append, List.forall_mem_cons] at hv ⊢
    exact ⟨hv.1, ih hv.2.1, hv.2.2⟩
  | kept h ih => exact ih hv

theorem keep_array_eq_ok_iff :
    keep room (.array items) = .ok ()
      ↔
    0 < room ∧ ∀ item ∈ items, keep (room - 1) item = .ok () := by
  cases room with
  | zero => simp [keep]
  | succ room => simp [keep, keepItems_eq_ok_iff]

theorem keep_object_eq_ok_iff :
    keep room (.object members) = .ok ()
      ↔
    0 < room ∧ ∀ m ∈ members, (∃ text, m.1.text = .ok text) ∧ keep (room - 1) m.2 = .ok () := by
  cases room with
  | zero => simp [keep]
  | succ room => simp [keep, keepMembers_eq_ok_iff]

theorem Ignorable.keep (h : Ignorable (some room) v) : keep room v = .ok () := by
  obtain ⟨s, hwritten⟩ := h.writable
  exact keep_eq_ok_iff.2 ⟨hwritten.skim, h.keepable room rfl⟩

theorem Rearranged.keep (h : Rearranged limit shape v v') (hlimit : limit = some room)
    (hv : keep room v = .ok ()) : keep room v' = .ok () := by
  induction h generalizing room with
  | order hshape hdistinct h =>
    rw [keep_object_eq_ok_iff] at hv ⊢
    exact ⟨hv.1, fun m hm => hv.2 m (h.mem_iff.2 hm)⟩
  | extra hkey hwritable hname hvalue =>
    subst hlimit
    rw [keep_object_eq_ok_iff, List.forall_mem_append] at hv ⊢
    rw [List.forall_mem_cons]
    exact ⟨hv.1, hv.2.1, ⟨⟨_, hkey⟩, hvalue.keep⟩, hv.2.2⟩
  | member hkey hpart h ih =>
    subst hlimit
    rw [keep_object_eq_ok_iff, List.forall_mem_append, List.forall_mem_cons] at hv ⊢
    exact ⟨hv.1, hv.2.1, ⟨hv.2.2.1.1, ih rfl hv.2.2.1.2⟩, hv.2.2.2⟩
  | item hpart h ih =>
    subst hlimit
    rw [keep_array_eq_ok_iff, List.forall_mem_append, List.forall_mem_cons] at hv ⊢
    exact ⟨hv.1, hv.2.1, ih rfl hv.2.2.1, hv.2.2.2⟩
  | kept h ih => contradiction

end Json
end LuaCodex
