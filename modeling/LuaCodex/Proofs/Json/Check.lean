import Mathlib.Logic.Basic
import LuaCodex.Proofs.Json.Written

/-!
This module contains the checks of JSON values that are passed over or kept. The main statements are
that a value in which reading breaks off passes no check, that every written value passes the check
of its form, and what the check of a kept value asks for.
-/

namespace LuaCodex
namespace Json

mutual

/--
The numbers in a value.
-/
def numerals : Json → List Numeral
  | number n => [n]
  | array items => numeralsOfItems items
  | object members => numeralsOfMembers members
  | _ => []

def numeralsOfItems : List Json → List Numeral
  | [] => []
  | item :: items => numerals item ++ numeralsOfItems items

def numeralsOfMembers : List (Quoted × Json) → List Numeral
  | [] => []
  | (_, value) :: members => numerals value ++ numeralsOfMembers members

end

mutual

/--
The strings in a value, with the keys.
-/
def strings : Json → List Quoted
  | string s => [s]
  | array items => stringsOfItems items
  | object members => stringsOfMembers members
  | _ => []

def stringsOfItems : List Json → List Quoted
  | [] => []
  | item :: items => strings item ++ stringsOfItems items

def stringsOfMembers : List (Quoted × Json) → List Quoted
  | [] => []
  | (key, value) :: members => key :: strings value ++ stringsOfMembers members

end

mutual

/--
The number of levels to which arrays and objects are nested in a value.
-/
def depth : Json → Nat
  | array items => depthOfItems items + 1
  | object members => depthOfMembers members + 1
  | _ => 0

def depthOfItems : List Json → Nat
  | [] => 0
  | item :: items => max (depth item) (depthOfItems items)

def depthOfMembers : List (Quoted × Json) → Nat
  | [] => 0
  | (_, value) :: members => max (depth value) (depthOfMembers members)

end

/--
A value that can be kept: its numbers are in range, its strings stand for texts, and it is not
nested too deeply.
-/
structure Keepable (room : Nat) (v : Json) : Prop where
  numbers : ∀ n ∈ v.numerals, n.inRange = true
  strings : ∀ q ∈ v.strings, ∃ text, q.text = .ok text
  depth : v.depth ≤ room

variable {v : Json} {s rest : List Char} {q : Quoted} {room fuel : Nat} {items : List Json}
variable {members : List (Quoted × Json)}

theorem Quoted.skim_eq_ok_iff : q.skim = .ok () ↔ q.fault = none := by
  unfold Quoted.skim
  cases q.fault <;> simp

theorem skimItems_eq_ok_iff : skimItems items = .ok () ↔ ∀ item ∈ items, skim item = .ok () := by
  induction items with
  | nil => simp [skimItems]
  | cons item items ih => rw [skimItems, check_bind_eq_ok_iff, ih, List.forall_mem_cons]

theorem skimMembers_eq_ok_iff :
    skimMembers members = .ok () ↔ ∀ m ∈ members, m.1.fault = none ∧ skim m.2 = .ok () := by
  induction members with
  | nil => simp [skimMembers]
  | cons m members ih =>
    rw [skimMembers, check_bind_eq_ok_iff, check_bind_eq_ok_iff, Quoted.skim_eq_ok_iff, ih,
      List.forall_mem_cons, and_assoc]

theorem keepItems_eq_ok_iff :
    keepItems room items = .ok () ↔ ∀ item ∈ items, keep room item = .ok () := by
  induction items with
  | nil => simp [keepItems]
  | cons item items ih => rw [keepItems, check_bind_eq_ok_iff, ih, List.forall_mem_cons]

theorem keepMembers_eq_ok_iff :
    keepMembers room members = .ok ()
      ↔
    ∀ m ∈ members, (∃ text, m.1.text = .ok text) ∧ keep room m.2 = .ok () := by
  induction members with
  | nil => simp [keepMembers]
  | cons m members ih =>
    rw [keepMembers, bind_eq_ok_iff, List.forall_mem_cons, ← ih]
    simp only [check_bind_eq_ok_iff, exists_and_right, and_assoc]

theorem Quoted.fault_of_join {fault : Option Fault} {high : Option Nat} {pieces : List Piece}
    {text : List Char} (h : join fault high pieces = .ok text) : fault = none := by
  induction pieces generalizing high text with
  | nil =>
    cases high with
    | none => cases fault <;> simp_all [join]
    | some high => simp [join] at h
  | cons piece pieces ih =>
    cases high with
    | none =>
      cases piece with
      | char c =>
        obtain ⟨rest, hrest, -⟩ := map_eq_ok_iff.1 h
        exact ih hrest
      | surrogate code =>
        simp only [join] at h
        split at h
        · contradiction
        · exact ih h
    | some high =>
      cases piece with
      | char c => simp [join] at h
      | surrogate low =>
        simp only [join] at h
        split at h
        · obtain ⟨rest, hrest, -⟩ := map_eq_ok_iff.1 h
          exact ih hrest
        · contradiction

theorem Quoted.fault_of_text {text : String} (h : q.text = .ok text) : q.fault = none := by
  obtain ⟨text, hjoin, -⟩ := map_eq_ok_iff.1 h
  exact fault_of_join hjoin

/--
What is read with some amount of fuel does not pass the check of its form if reading breaks off.
-/
structure BreaksOff (fuel : Nat) : Prop where
  value : ∀ {s v}, scanValue fuel s = (v, none) → skim v ≠ .ok ()
  item : ∀ {s items}, scanItem fuel s = (items, none) → skimItems items ≠ .ok ()
  items : ∀ {first s items}, scanItems fuel first s = (items, none) → skimItems items ≠ .ok ()
  member : ∀ {s members}, scanMember fuel s = (members, none) → skimMembers members ≠ .ok ()
  members : ∀ {first s members}, scanMembers fuel first s = (members, none) →
    skimMembers members ≠ .ok ()

theorem skimItems_broken {fault : Fault} : skimItems [broken fault] ≠ .ok () := by
  simp [skimItems_eq_ok_iff, skim]

theorem skimMembers_stopMembers {fault : Fault} : skimMembers (stopMembers fault).1 ≠ .ok () := by
  simp [skimMembers_eq_ok_iff, stopMembers]

theorem skim_scanLiteral {value : Json} {word : List Char}
    (h : scanLiteral value word s = (v, none)) : skim v ≠ .ok () := by
  induction word generalizing s with
  | nil => simp [scanLiteral] at h
  | cons c word ih =>
    cases s with
    | nil =>
      cases h
      simp [skim]
    | cons d s =>
      unfold scanLiteral at h
      split at h
      · exact ih h
      · cases h
        simp [skim]

theorem BreaksOff.value_succ (h : BreaksOff fuel) (hread : scanValue (fuel + 1) s = (v, none)) :
    skim v ≠ .ok () := by
  simp only [scanValue] at hread
  split at hread
  · cases hread
    simp [skim]
  split at hread
  · next c t _ hc =>
    rcases hscan : Quoted.scan t with ⟨q, rest⟩
    simp only [hscan, Prod.mk.injEq] at hread
    obtain ⟨rfl, rfl⟩ := hread
    rw [skim, ne_eq, Quoted.skim_eq_ok_iff]
    exact Quoted.fault_of_scan hscan
  split at hread
  · next c t _ _ hc =>
    rcases hscan : scanItems fuel true t with ⟨items, rest⟩
    simp only [hscan, Prod.mk.injEq] at hread
    obtain ⟨rfl, rfl⟩ := hread
    exact h.items hscan
  split at hread
  · next c t _ _ _ hc =>
    rcases hscan : scanMembers fuel true t with ⟨members, rest⟩
    simp only [hscan, Prod.mk.injEq] at hread
    obtain ⟨rfl, rfl⟩ := hread
    exact h.members hscan
  split at hread
  · exact skim_scanLiteral hread
  split at hread
  · exact skim_scanLiteral hread
  split at hread
  · exact skim_scanLiteral hread
  split at hread
  · unfold scanNumber at hread
    split at hread
    · simp at hread
    · cases hread
      simp [skim]
  · cases hread
    simp [skim]

theorem BreaksOff.item_succ (h : BreaksOff fuel) (hread : scanItem (fuel + 1) s = (items, none)) :
    skimItems items ≠ .ok () := by
  simp only [scanItem] at hread
  split at hread
  · next v hvalue =>
    cases hread
    simpa [skimItems_eq_ok_iff] using h.value hvalue
  · next v t hvalue =>
    rcases hscan : scanItems fuel false t with ⟨more, rest⟩
    simp only [hscan, Prod.mk.injEq] at hread
    obtain ⟨rfl, rfl⟩ := hread
    have hmore := h.items hscan
    rw [skimItems, ne_eq, check_bind_eq_ok_iff]
    exact fun hitems => hmore hitems.2

theorem BreaksOff.items_succ (h : BreaksOff fuel) {first : Bool}
    (hread : scanItems (fuel + 1) first s = (items, none)) : skimItems items ≠ .ok () := by
  simp only [scanItems] at hread
  split at hread
  · cases hread
    exact skimItems_broken
  split at hread
  · simp at hread
  split at hread
  · exact h.item hread
  split at hread
  · split at hread
    · cases hread
      exact skimItems_broken
    · exact h.item hread
  · cases hread
    exact skimItems_broken

theorem BreaksOff.member_succ (h : BreaksOff fuel)
    (hread : scanMember (fuel + 1) s = (members, none)) : skimMembers members ≠ .ok () := by
  simp only [scanMember] at hread
  split at hread
  · cases hread
    exact skimMembers_stopMembers
  split at hread
  · split at hread
    · cases hread
      simp [skimMembers_eq_ok_iff, skim]
    · split at hread
      · cases hread
        simp [skimMembers_eq_ok_iff, skim]
      split at hread
      · split at hread
        · next v hvalue =>
          cases hread
          simpa [skimMembers_eq_ok_iff] using fun _ => h.value hvalue
        · next v t hvalue =>
          rcases hscan : scanMembers fuel false t with ⟨more, rest⟩
          simp only [hscan, Prod.mk.injEq] at hread
          obtain ⟨rfl, rfl⟩ := hread
          have hmore := h.members hscan
          rw [skimMembers, ne_eq, check_bind_eq_ok_iff, check_bind_eq_ok_iff]
          exact fun hmembers => hmore hmembers.2.2
      · cases hread
        simp [skimMembers_eq_ok_iff, skim]
  · cases hread
    exact skimMembers_stopMembers

theorem BreaksOff.members_succ (h : BreaksOff fuel) {first : Bool}
    (hread : scanMembers (fuel + 1) first s = (members, none)) : skimMembers members ≠ .ok () := by
  simp only [scanMembers] at hread
  split at hread
  · cases hread
    exact skimMembers_stopMembers
  split at hread
  · simp at hread
  split at hread
  · exact h.member hread
  split at hread
  · split at hread
    · cases hread
      exact skimMembers_stopMembers
    · exact h.member hread
  · cases hread
    exact skimMembers_stopMembers

theorem breaksOff (fuel : Nat) : BreaksOff fuel := by
  induction fuel with
  | zero =>
    refine ⟨?_, ?_, ?_, ?_, ?_⟩
    · rintro s v ⟨⟩
      simp [skim]
    · rintro s items ⟨⟩
      exact skimItems_broken
    · rintro first s items ⟨⟩
      exact skimItems_broken
    · rintro s members ⟨⟩
      exact skimMembers_stopMembers
    · rintro first s members ⟨⟩
      exact skimMembers_stopMembers
  | succ fuel ih =>
    exact ⟨ih.value_succ, ih.item_succ, ih.items_succ, ih.member_succ, ih.members_succ⟩

/--
A value in which reading breaks off does not pass the check of its form.
-/
theorem skim_of_scan (h : scan s = (v, none)) : skim v ≠ .ok () := by
  exact (breaksOff _).value h

theorem WrittenKey.fault (h : WrittenKey q s) : q.fault = none := by
  cases h
  rfl

theorem Written.skim (h : Written v s) : skim v = .ok () := by
  induction h with
  | null | bool b | number h => rfl
  | string h => rfl
  | emptyArray hgap | emptyObject hgap => rfl
  | array items hne h ih =>
    rw [Json.skim, skimItems_eq_ok_iff]
    simpa using ih
  | object members hne hkeys h ih =>
    rw [Json.skim, skimMembers_eq_ok_iff, List.forall_mem_map]
    intro m hm
    exact ⟨(hkeys m hm).fault, ih m hm⟩
  | before hc h ih | after hc h ih => exact ih

/--
The induction on values.
-/
@[elab_as_elim]
theorem induction {P : Json → Prop} (null : P .null) (bool : ∀ b, P (.bool b))
    (number : ∀ n, P (.number n)) (string : ∀ s, P (.string s))
    (array : ∀ items, (∀ item ∈ items, P item) → P (.array items))
    (object : ∀ members, (∀ m ∈ members, P m.2) → P (.object members))
    (broken : ∀ fault, P (.broken fault)) (v : Json) : P v := by
  refine @Json.rec P (fun items => ∀ item ∈ items, P item) (fun members => ∀ m ∈ members, P m.2)
    (fun m => P m.2) null bool number string array object broken ?_ ?_ ?_ ?_ ?_ v
  · simp
  · intro item items hitem hitems
    exact List.forall_mem_cons.2 ⟨hitem, hitems⟩
  · simp
  · intro m members hm hmembers
    exact List.forall_mem_cons.2 ⟨hm, hmembers⟩
  · intro key value hvalue
    exact hvalue

theorem forall_mem_numeralsOfItems {P : Numeral → Prop} :
    (∀ n ∈ numeralsOfItems items, P n) ↔ ∀ item ∈ items, ∀ n ∈ item.numerals, P n := by
  induction items with
  | nil => simp [numeralsOfItems]
  | cons item items ih => rw [numeralsOfItems, List.forall_mem_append, ih, List.forall_mem_cons]

theorem forall_mem_numeralsOfMembers {P : Numeral → Prop} :
    (∀ n ∈ numeralsOfMembers members, P n) ↔ ∀ m ∈ members, ∀ n ∈ m.2.numerals, P n := by
  induction members with
  | nil => simp [numeralsOfMembers]
  | cons m members ih => rw [numeralsOfMembers, List.forall_mem_append, ih, List.forall_mem_cons]

theorem forall_mem_stringsOfItems {P : Quoted → Prop} :
    (∀ q ∈ stringsOfItems items, P q) ↔ ∀ item ∈ items, ∀ q ∈ item.strings, P q := by
  induction items with
  | nil => simp [stringsOfItems]
  | cons item items ih => rw [stringsOfItems, List.forall_mem_append, ih, List.forall_mem_cons]

theorem forall_mem_stringsOfMembers {P : Quoted → Prop} :
    (∀ q ∈ stringsOfMembers members, P q)
      ↔
    ∀ m ∈ members, P m.1 ∧ ∀ q ∈ m.2.strings, P q := by
  induction members with
  | nil => simp [stringsOfMembers]
  | cons m members ih =>
    rw [stringsOfMembers, List.forall_mem_append, List.forall_mem_cons, ih, List.forall_mem_cons]

theorem depthOfItems_le_iff : depthOfItems items ≤ room ↔ ∀ item ∈ items, item.depth ≤ room := by
  induction items with
  | nil => simp [depthOfItems]
  | cons item items ih => rw [depthOfItems, Nat.max_le, ih, List.forall_mem_cons]

theorem depthOfMembers_le_iff :
    depthOfMembers members ≤ room ↔ ∀ m ∈ members, m.2.depth ≤ room := by
  induction members with
  | nil => simp [depthOfMembers]
  | cons m members ih => rw [depthOfMembers, Nat.max_le, ih, List.forall_mem_cons]

theorem keepable_iff :
    Keepable room v
      ↔
    (∀ n ∈ v.numerals, n.inRange = true) ∧ (∀ q ∈ v.strings, ∃ text, q.text = .ok text)
      ∧ v.depth ≤ room := by
  exact ⟨fun h => ⟨h.numbers, h.strings, h.depth⟩, fun h => ⟨h.1, h.2.1, h.2.2⟩⟩

theorem keepable_array_iff :
    Keepable (room + 1) (.array items) ↔ ∀ item ∈ items, Keepable room item := by
  simp only [keepable_iff, numerals, strings, depth, forall_mem_numeralsOfItems,
    forall_mem_stringsOfItems, Nat.add_le_add_iff_right, depthOfItems_le_iff, forall₂_and]

theorem keepable_object_iff :
    Keepable (room + 1) (.object members)
      ↔
    ∀ m ∈ members, (∃ text, m.1.text = .ok text) ∧ Keepable room m.2 := by
  simp only [keepable_iff, numerals, strings, depth, forall_mem_numeralsOfMembers,
    forall_mem_stringsOfMembers, Nat.add_le_add_iff_right, depthOfMembers_le_iff, forall₂_and]
  rw [and_assoc, and_left_comm]

theorem not_keepable_zero (h : v.depth ≠ 0) : ¬ Keepable 0 v := by
  intro hkeepable
  exact h (Nat.le_zero.1 hkeepable.depth)

/--
A value passes the check of kept values if and only if it is not broken and can be kept.
-/
theorem keep_eq_ok_iff : keep room v = .ok () ↔ skim v = .ok () ∧ Keepable room v := by
  induction v using Json.induction generalizing room with
  | null | bool b | number n => simp [keep, skim, keepable_iff, numerals, strings, depth]
  | string s =>
    have hkeepable : Keepable room (.string s) ↔ ∃ text, s.text = .ok text := by
      simp [keepable_iff, numerals, strings, depth]
    rw [hkeepable, keep, skim, Quoted.skim_eq_ok_iff, map_eq_ok_iff]
    constructor
    · rintro ⟨text, htext, -⟩
      exact ⟨Quoted.fault_of_text htext, text, htext⟩
    · rintro ⟨-, text, htext⟩
      exact ⟨text, htext, rfl⟩
  | array items ih =>
    cases room with
    | zero => simp [keep, not_keepable_zero (v := .array items) (by simp [depth])]
    | succ room =>
      rw [keep, keepItems_eq_ok_iff, skim, skimItems_eq_ok_iff, keepable_array_iff, ← forall₂_and]
      exact forall₂_congr fun item hitem => ih item hitem
  | object members ih =>
    cases room with
    | zero => simp [keep, not_keepable_zero (v := .object members) (by simp [depth])]
    | succ room =>
      rw [keep, keepMembers_eq_ok_iff, skim, skimMembers_eq_ok_iff, keepable_object_iff,
        ← forall₂_and]
      refine forall₂_congr fun m hm => ?_
      rw [ih m hm]
      constructor
      · rintro ⟨⟨text, htext⟩, hskim, hkeepable⟩
        exact ⟨⟨Quoted.fault_of_text htext, hskim⟩, ⟨text, htext⟩, hkeepable⟩
      · rintro ⟨⟨-, hskim⟩, htext, hkeepable⟩
        exact ⟨htext, hskim, hkeepable⟩
  | broken fault => simp [keep, skim]

end Json
end LuaCodex
