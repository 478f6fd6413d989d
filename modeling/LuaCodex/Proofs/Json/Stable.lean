import Mathlib.Data.List.Forall2
import Mathlib.Data.List.Pairwise
import LuaCodex.Proofs.Json.Rearranged

/-!
This module contains the reading of JSON values after a change that keeps their meaning. The main
statements are that lists, tables and records are read alike before and after such a change,
provided that their parts are.
-/

namespace LuaCodex
namespace Json

variable {limit : Option Nat} {room : Nat} {shape : Shape} {v v' : Json}
variable {members members' : List (Quoted × Json)}

/--
What is read from a value is read from it after a change, too.
-/
def Stable {α : Type} (limit : Option Nat) (shape : Shape) (read : Json → Reading α) : Prop :=
  ∀ ⦃v v' x⦄, Rearranged limit shape v v' → read v = .ok x → read v' = .ok x

section Values

variable {α β : Type} {read : Json → Reading α} {part : Shape}

theorem stable_leaf (read : Json → Reading α) : Stable limit .leaf read := by
  intro v v' x h
  cases h <;> contradiction

theorem Stable.map (h : Stable limit shape read) (f : α → β) :
    Stable limit shape fun v => (read v).map f := by
  intro v v' x hchange hread
  obtain ⟨y, hy, rfl⟩ := map_eq_ok_iff.1 hread
  exact map_eq_ok_iff.2 ⟨y, h hchange hy, rfl⟩

theorem stable_kept (h : Stable (some room) shape read) : Stable none (.kept room shape) read := by
  intro v v' x hchange
  cases hchange with
  | kept hchange => exact h hchange
  | _ => contradiction

theorem mapM_change {front back : List Json} {l : List α}
    (h : ∀ x, read v = .ok x → read v' = .ok x) (hread : (front ++ v :: back).mapM read = .ok l) :
    (front ++ v' :: back).mapM read = .ok l := by
  induction front generalizing l with
  | nil =>
    simp only [List.nil_append, List.mapM_cons, bind_eq_ok_iff] at hread ⊢
    obtain ⟨x, hx, hrest⟩ := hread
    exact ⟨x, h x hx, hrest⟩
  | cons item front ih =>
    simp only [List.cons_append, List.mapM_cons, bind_eq_ok_iff] at hread ⊢
    obtain ⟨x, hx, l, hl, hrest⟩ := hread
    exact ⟨x, hx, l, ih hl, hrest⟩

theorem Stable.readList (h : Stable (inside limit) part read) :
    Stable limit (.list part) (readList read) := by
  intro v v' l hchange hread
  cases hchange with
  | order hshape => contradiction
  | member hkey hpart => contradiction
  | item hpart hchange =>
    cases hpart
    exact mapM_change (fun x => h hchange) hread

section Table

variable {read : String → Json → Reading α}

theorem readTable_go_cons_eq_ok_iff {start table : Table α} {key : Quoted} :
    readTable.go read start ((key, v) :: members) = .ok table
      ↔
    ∃ name entry, key.text = .ok name ∧ read name v = .ok entry
      ∧ readTable.go read (start.insert name entry) members = .ok table := by
  simp only [readTable.go, bind_eq_ok_iff, Quoted.read, mapError_eq_ok_iff]
  constructor
  · rintro ⟨name, hname, entry, hentry, hrest⟩
    exact ⟨name, entry, hname, hentry, hrest⟩
  · rintro ⟨name, entry, hname, hentry, hrest⟩
    exact ⟨name, hname, entry, hentry, hrest⟩

theorem readTable_go_append {front back back' : List (Quoted × Json)}
    (h : ∀ start table, readTable.go read start back = .ok table →
      readTable.go read start back' = .ok table) {start table : Table α}
    (hread : readTable.go read start (front ++ back) = .ok table) :
    readTable.go read start (front ++ back') = .ok table := by
  induction front generalizing start with
  | nil => exact h start table hread
  | cons m front ih =>
    rw [List.cons_append, readTable_go_cons_eq_ok_iff] at hread ⊢
    obtain ⟨name, entry, hname, hentry, hrest⟩ := hread
    exact ⟨name, entry, hname, hentry, ih hrest⟩

theorem Table.insert_comm {table : Table α} {name name' : String} (h : name ≠ name')
    (entry entry' : α) :
    (table.insert name entry).insert name' entry'
      =
    (table.insert name' entry').insert name entry := by
  apply Std.ExtTreeMap.ext_getElem?
  intro other
  simp only [Std.ExtTreeMap.getElem?_insert, Std.LawfulEqCmp.compare_eq_iff_eq]
  by_cases hname : name = other
  · have hother : name' ≠ other := by
      rintro rfl
      exact h hname
    simp only [hname, hother, ↓reduceIte]
  · simp only [hname, ↓reduceIte]

theorem readTable_go_perm {start table : Table α} (h : members.Perm members')
    (hdistinct : (members.map (·.1.text)).Nodup)
    (hread : readTable.go read start members = .ok table) :
    readTable.go read start members' = .ok table := by
  induction h generalizing start with
  | nil => exact hread
  | cons m h ih =>
    rw [List.map_cons, List.nodup_cons] at hdistinct
    rw [readTable_go_cons_eq_ok_iff] at hread ⊢
    obtain ⟨name, entry, hname, hentry, hrest⟩ := hread
    exact ⟨name, entry, hname, hentry, ih hdistinct.2 hrest⟩
  | swap m m' members =>
    obtain ⟨key, v⟩ := m
    obtain ⟨key', v'⟩ := m'
    simp only [readTable_go_cons_eq_ok_iff] at hread ⊢
    obtain ⟨name', entry', hname', hentry', name, entry, hname, hentry, hrest⟩ := hread
    have hne : name ≠ name' := by
      rintro rfl
      simp [hname, hname'] at hdistinct
    refine ⟨name, entry, hname, hentry, name', entry', hname', hentry', ?_⟩
    rwa [Table.insert_comm hne]
  | trans h h' ih ih' =>
    exact ih' ((h.map _).nodup_iff.1 hdistinct) (ih hdistinct hread)

theorem stable_readTable (h : ∀ name, Stable (inside limit) part (read name)) :
    Stable limit (.table part) (readTable read) := by
  intro v v' table hchange hread
  cases hchange with
  | order hshape hdistinct hperm => exact readTable_go_perm hperm hdistinct hread
  | item hpart => contradiction
  | member hkey hpart hchange =>
    cases hpart
    refine readTable_go_append ?_ hread
    intro start table hread
    rw [readTable_go_cons_eq_ok_iff] at hread ⊢
    obtain ⟨name, entry, hname, hentry, hrest⟩ := hread
    exact ⟨name, entry, hname, h name hchange hentry, hrest⟩

end Table
end Values

/--
Fields that can be put into a record in any order.
-/
def Field.Commute {σ : Type} (f g : Field σ) : Prop :=
  ∀ ⦃v w set set'⦄, f.read v = .ok set → g.read w = .ok set' →
    ∀ record, set (set' record) = set' (set record)

instance {σ : Type} : Std.Symm (Field.Commute (σ := σ)) where
  symm _ _ h _ _ _ _ hset hset' record := (h hset' hset record).symm

theorem Field.commute_of {σ α β : Type} {name name' : String} {read : Json → Reading α}
    {read' : Json → Reading β} {set : α → σ → σ} {set' : β → σ → σ} {required required' : Bool}
    (h : ∀ x y record, set x (set' y record) = set' y (set x record)) :
    (Field.of name read set required).Commute (Field.of name' read' set' required') := by
  intro v w s s' hs hs' record
  obtain ⟨x, -, rfl⟩ := map_eq_ok_iff.1 hs
  obtain ⟨y, -, rfl⟩ := map_eq_ok_iff.1 hs'
  exact h x y record

namespace RecordFormat

variable {σ : Type} {format : RecordFormat σ} {other : Json → Except Fault Unit}
variable {fields : List (String × Shape)}

/--
The same names have been seen.
-/
def SameNames (seen seen' : List String) : Prop :=
  ∀ name, name ∈ seen ↔ name ∈ seen'

/--
Whenever one attempt to read members succeeds, another one succeeds, too. The record is the same and
so are the fields that have been read.
-/
def Carries (attempt attempt' : Reading (σ × List String)) : Prop :=
  ∀ record seen, attempt = .ok (record, seen) →
    ∃ seen', attempt' = .ok (record, seen') ∧ SameNames seen seen'

/--
The fields of a record that is read from an object. They can be put into it in any order, and each
of them is read alike after a change.
-/
structure ReadsFields (format : RecordFormat σ) (limit : Option Nat)
    (fields : List (String × Shape)) : Prop where
  commute : ∀ f ∈ format.fields, ∀ g ∈ format.fields, f.name ≠ g.name → f.Commute g
  stable : ∀ f ∈ format.fields, ∃ part, fields.lookup f.name = some part ∧ Stable limit part f.read

variable {record : σ} {seen seen' : List String} {front back back' : List (Quoted × Json)}
variable {key : Quoted}

theorem SameNames.refl (seen : List String) : SameNames seen seen := by
  exact fun _ => Iff.rfl

theorem SameNames.cons (h : SameNames seen seen') (name : String) :
    SameNames (name :: seen) (name :: seen') := by
  intro other
  rw [List.mem_cons, List.mem_cons, h]

theorem Carries.trans {x y z : Reading (σ × List String)} (h : Carries x y) (h' : Carries y z) :
    Carries x z := by
  intro record seen hx
  obtain ⟨seen', hy, hseen⟩ := h _ _ hx
  obtain ⟨seen'', hz, hseen'⟩ := h' _ _ hy
  exact ⟨seen'', hz, fun name => (hseen name).trans (hseen' name)⟩

/-! One member in front of others that are read alike. -/

theorem carries_cons (h : ∀ record seen seen', SameNames seen seen' →
      Carries (readMembers.go format other record seen back)
        (readMembers.go format other record seen' back'))
    (m : Quoted × Json) (record : σ) (hseen : SameNames seen seen') :
    Carries (readMembers.go format other record seen (m :: back))
      (readMembers.go format other record seen' (m :: back')) := by
  obtain ⟨key, v⟩ := m
  intro result last hread
  obtain ⟨name, hname, ⟨field, set, hfind, hnew, hset, hrest⟩ | ⟨hfind, hother, hrest⟩⟩ :=
    go_cons_eq_ok_iff.1 hread
  · obtain ⟨last', hrest', hlast⟩ := h _ _ _ (hseen.cons name) _ _ hrest
    refine ⟨last', go_cons_eq_ok_iff.2 ⟨name, hname, Or.inl ?_⟩, hlast⟩
    exact ⟨field, set, hfind, fun hold => hnew ((hseen name).2 hold), hset, hrest'⟩
  · obtain ⟨last', hrest', hlast⟩ := h _ _ _ hseen _ _ hrest
    exact ⟨last', go_cons_eq_ok_iff.2 ⟨name, hname, Or.inr ⟨hfind, hother, hrest'⟩⟩, hlast⟩

theorem carries_of_sameNames (h : SameNames seen seen') (record : σ)
    (members : List (Quoted × Json)) :
    Carries (readMembers.go format other record seen members)
      (readMembers.go format other record seen' members) := by
  induction members generalizing record seen seen' with
  | nil =>
    intro record seen hread
    cases hread
    exact ⟨seen', rfl, h⟩
  | cons m members ih => exact carries_cons (fun record _ _ h => ih h record) m record h

theorem carries_append (h : ∀ record seen, Carries (readMembers.go format other record seen back)
      (readMembers.go format other record seen back'))
    (front : List (Quoted × Json)) (record : σ) (seen : List String) :
    Carries (readMembers.go format other record seen (front ++ back))
      (readMembers.go format other record seen (front ++ back')) := by
  induction front generalizing record seen with
  | nil => exact h record seen
  | cons m front ih =>
    refine carries_cons ?_ m record (SameNames.refl seen)
    intro record seen seen' hseen
    exact (ih record seen).trans (carries_of_sameNames hseen record _)

theorem carries_swap (hcommute : ∀ f ∈ format.fields, ∀ g ∈ format.fields, f.name ≠ g.name →
      f.Commute g) (m m' : Quoted × Json) (record : σ) (seen : List String) :
    Carries (readMembers.go format other record seen (m :: m' :: back))
      (readMembers.go format other record seen (m' :: m :: back)) := by
  obtain ⟨key, v⟩ := m
  obtain ⟨key', v'⟩ := m'
  have hfield : ∀ {name field}, format.fields.find? (·.name == name) = some field →
      field ∈ format.fields ∧ field.name = name := by
    intro name field hfind
    exact ⟨List.mem_of_find?_eq_some hfind, by simpa using List.find?_some hfind⟩
  intro result last hread
  obtain ⟨name, hname, ⟨field, set, hfind, hnew, hset, hrest⟩ | ⟨hfind, hother, hrest⟩⟩ :=
    go_cons_eq_ok_iff.1 hread
  · obtain ⟨name', hname', ⟨field', set', hfind', hnew', hset', hrest'⟩ |
        ⟨hfind', hother', hrest'⟩⟩ := go_cons_eq_ok_iff.1 hrest
    · -- Two fields: their names differ, so it does not matter which one is put in first.
      rw [List.mem_cons, not_or] at hnew'
      have hne : field'.name ≠ field.name := by
        rw [(hfield hfind).2, (hfield hfind').2]
        exact hnew'.1
      have hcomm := hcommute field' (hfield hfind').1 field (hfield hfind).1 hne hset' hset record
      have hnames : SameNames (name' :: name :: seen) (name :: name' :: seen) := by
        intro other
        simp only [List.mem_cons]
        exact or_left_comm
      rw [hcomm] at hrest'
      obtain ⟨last', hback, hlast⟩ := carries_of_sameNames hnames _ back _ _ hrest'
      refine ⟨last', ?_, hlast⟩
      refine go_cons_eq_ok_iff.2 ⟨name', hname', Or.inl ⟨field', set', hfind', hnew'.2, hset', ?_⟩⟩
      refine go_cons_eq_ok_iff.2 ⟨name, hname, Or.inl ⟨field, set, hfind, ?_, hset, hback⟩⟩
      rw [List.mem_cons, not_or]
      exact ⟨Ne.symm hnew'.1, hnew⟩
    · refine ⟨last, ?_, SameNames.refl last⟩
      refine go_cons_eq_ok_iff.2 ⟨name', hname', Or.inr ⟨hfind', hother', ?_⟩⟩
      exact go_cons_eq_ok_iff.2 ⟨name, hname, Or.inl ⟨field, set, hfind, hnew, hset, hrest'⟩⟩
  · obtain ⟨name', hname', ⟨field', set', hfind', hnew', hset', hrest'⟩ |
        ⟨hfind', hother', hrest'⟩⟩ := go_cons_eq_ok_iff.1 hrest
    · refine ⟨last, ?_, SameNames.refl last⟩
      refine go_cons_eq_ok_iff.2 ⟨name', hname', Or.inl ⟨field', set', hfind', hnew', hset', ?_⟩⟩
      exact go_cons_eq_ok_iff.2 ⟨name, hname, Or.inr ⟨hfind, hother, hrest'⟩⟩
    · refine ⟨last, ?_, SameNames.refl last⟩
      refine go_cons_eq_ok_iff.2 ⟨name', hname', Or.inr ⟨hfind', hother', ?_⟩⟩
      exact go_cons_eq_ok_iff.2 ⟨name, hname, Or.inr ⟨hfind, hother, hrest'⟩⟩

theorem carries_perm (hcommute : ∀ f ∈ format.fields, ∀ g ∈ format.fields, f.name ≠ g.name →
      f.Commute g) (h : members.Perm members') (record : σ) (seen : List String) :
    Carries (readMembers.go format other record seen members)
      (readMembers.go format other record seen members') := by
  induction h generalizing record seen with
  | nil => exact carries_of_sameNames (SameNames.refl seen) record []
  | cons m h ih => exact carries_append ih [m] record seen
  | swap m m' members => exact carries_swap hcommute m' m record seen
  | trans h h' ih ih' => exact (ih record seen).trans (ih' record seen)

theorem carries_extra {name : String} (hkey : key.text = .ok name)
    (hname : ∀ f ∈ format.fields, f.name ≠ name) (hother : other v = .ok ()) (record : σ)
    (seen : List String) :
    Carries (readMembers.go format other record seen back)
      (readMembers.go format other record seen ((key, v) :: back)) := by
  intro result last hread
  refine ⟨last, ?_, SameNames.refl last⟩
  refine go_cons_eq_ok_iff.2 ⟨name, mapError_eq_ok_iff.2 hkey, Or.inr ⟨?_, hother, hread⟩⟩
  simpa using hname

theorem carries_change {name : String} (hkey : key.text = .ok name)
    (hfield : ∀ f ∈ format.fields, f.name = name →
      ∀ {set}, f.read v = .ok set → f.read v' = .ok set)
    (hother : (∀ f ∈ format.fields, f.name ≠ name) → other v = .ok () → other v' = .ok ())
    (record : σ) (seen : List String) :
    Carries (readMembers.go format other record seen ((key, v) :: back))
      (readMembers.go format other record seen ((key, v') :: back)) := by
  intro result last hread
  refine ⟨last, ?_, SameNames.refl last⟩
  obtain ⟨name', hname, hcases⟩ := go_cons_eq_ok_iff.1 hread
  obtain rfl : name' = name := by
    rw [Quoted.read, mapError_eq_ok_iff, hkey] at hname
    cases hname
    rfl
  refine go_cons_eq_ok_iff.2 ⟨name', hname, ?_⟩
  rcases hcases with ⟨field, set, hfind, hnew, hset, hrest⟩ | ⟨hfind, hv, hrest⟩
  · have hmem := List.mem_of_find?_eq_some hfind
    have hfieldName : field.name = name' := by simpa using List.find?_some hfind
    exact Or.inl ⟨field, set, hfind, hnew, hfield field hmem hfieldName hset, hrest⟩
  · refine Or.inr ⟨hfind, hother ?_ hv, hrest⟩
    simpa using hfind

theorem readObject_of_carries {members members' : List (Quoted × Json)}
    (h : Carries (readMembers.go format other format.start [] members)
      (readMembers.go format other format.start [] members'))
    (hread : format.readObject other members = .ok record) :
    format.readObject other members' = .ok record := by
  obtain ⟨seen, hgo, hrequired⟩ := readObject_eq_ok_iff.1 hread
  obtain ⟨seen', hgo', hseen⟩ := h _ _ hgo
  refine readObject_eq_ok_iff.2 ⟨seen', hgo', ?_⟩
  intro field hfield hneeded
  exact (hseen _).1 (hrequired field hfield hneeded)

theorem ReadsFields.name_ne (h : format.ReadsFields limit fields) {name : String}
    (hname : ∀ field ∈ fields, field.1 ≠ name) : ∀ f ∈ format.fields, f.name ≠ name := by
  intro f hf
  obtain ⟨part, hpart, -⟩ := h.stable f hf
  obtain ⟨front, back, hfields, -⟩ := List.lookup_eq_some_iff.1 hpart
  exact hname (f.name, part) (by simp [hfields])

theorem ReadsFields.cons (h : format.ReadsFields limit fields) {entry : String × Shape}
    (hname : ∀ f ∈ format.fields, f.name ≠ entry.1) :
    format.ReadsFields limit (entry :: fields) := by
  refine ⟨h.commute, ?_⟩
  intro f hf
  obtain ⟨part, hpart, hstable⟩ := h.stable f hf
  refine ⟨part, ?_, hstable⟩
  rw [List.lookup_cons, beq_false_of_ne (hname f hf)]
  exact hpart

theorem readObject_of_rearranged (hfields : format.ReadsFields (inside limit) fields)
    (hother : ∀ {name part v v'}, fields.lookup name = some part →
      (∀ f ∈ format.fields, f.name ≠ name) → Rearranged (inside limit) part v v' →
      other v = .ok () → other v' = .ok ())
    (hignorable : ∀ {v}, Ignorable (inside limit) v → other v = .ok ())
    (h : Rearranged limit (.record fields) (.object members) (.object members'))
    (hread : format.readObject other members = .ok record) :
    format.readObject other members' = .ok record := by
  refine readObject_of_carries ?_ hread
  cases h with
  | order hshape hdistinct hperm => exact carries_perm hfields.commute hperm _ _
  | extra hkey hwritable hname hvalue =>
    apply carries_append
    exact carries_extra hkey (hfields.name_ne hname) (hignorable hvalue)
  | member hkey hpart hchange =>
    apply carries_append
    refine carries_change hkey ?_ (fun hne => hother hpart hne hchange)
    rintro f hf rfl set hset
    obtain ⟨part', hpart', hstable⟩ := hfields.stable f hf
    rw [Shape.member?, hpart'] at hpart
    cases hpart
    exact hstable hchange hset

theorem stable_record {α : Type} {read : Json → Reading α}
    (hobject : ∀ members members',
      Rearranged limit (.record fields) (.object members) (.object members') →
      ∀ x, read (.object members) = .ok x → read (.object members') = .ok x)
    (harray : ∀ front back part v v', fields[front.length]?.map (·.2) = some part →
      Rearranged (inside limit) part v v' →
      ∀ x, read (.array (front ++ v :: back)) = .ok x →
        read (.array (front ++ v' :: back)) = .ok x) :
    Stable limit (.record fields) read := by
  intro v v' x hchange hread
  cases hchange with
  | order hshape hdistinct hperm => exact hobject _ _ (.order hshape hdistinct hperm) x hread
  | extra hkey hwritable hname hvalue =>
    exact hobject _ _ (.extra hkey hwritable hname hvalue) x hread
  | member hkey hpart hchange => exact hobject _ _ (.member hkey hpart hchange) x hread
  | item hpart hchange => exact harray _ _ _ _ _ hpart hchange x hread

/--
The fields of a record have the given names and shapes, one by one, so that the record can be read
from an array as well.
-/
structure HasShape (format : RecordFormat σ) (limit : Option Nat)
    (fields : List (String × Shape)) : Prop where
  aligned : List.Forall₂ (fun f entry => f.name = entry.1 ∧ Stable limit entry.2 f.read)
    format.fields fields
  distinct : (fields.map (·.1)).Nodup
  commute : format.fields.Pairwise Field.Commute

theorem exists_lookup_of_aligned {fs : List (Field σ)} (hdistinct : (fields.map (·.1)).Nodup)
    (h : List.Forall₂ (fun f entry => f.name = entry.1 ∧ Stable limit entry.2 f.read) fs fields) :
    (∀ f ∈ fs, ∃ part, fields.lookup f.name = some part ∧ Stable limit part f.read)
      ∧ fs.map (·.name) = fields.map (·.1) := by
  induction h with
  | nil => simp
  | @cons f entry fs fields hentry h ih =>
    rw [List.map_cons, List.nodup_cons] at hdistinct
    obtain ⟨hlookup, hnames⟩ := ih hdistinct.2
    refine ⟨?_, ?_⟩
    · rw [List.forall_mem_cons]
      constructor
      · refine ⟨entry.2, ?_, hentry.2⟩
        rw [List.lookup_cons, hentry.1, beq_self_eq_true]
      · intro g hg
        obtain ⟨part, hpart, hstable⟩ := hlookup g hg
        refine ⟨part, ?_, hstable⟩
        have hne : g.name ≠ entry.1 := by
          rintro heq
          rw [← heq, ← hnames] at hdistinct
          exact hdistinct.1 (List.mem_map_of_mem hg)
        rw [List.lookup_cons, beq_false_of_ne hne]
        exact hpart
    · rw [List.map_cons, List.map_cons, hentry.1, hnames]

theorem HasShape.readsFields (h : format.HasShape limit fields) :
    format.ReadsFields limit fields := by
  refine ⟨?_, (exists_lookup_of_aligned h.distinct h.aligned).1⟩
  intro f hf g hg hne
  exact h.commute.forall hf hg fun heq => hne (congrArg Field.name heq)

theorem readItems_go_congr {excess excess' : List Json → Reading Unit} {whole whole' : List Json}
    (hexcess : ∀ {items}, excess items = .ok () → excess' items = .ok ()) {fs : List (Field σ)}
    {items : List Json} {result : σ}
    (hread : readItems.go format excess whole record fs items = .ok result) :
    readItems.go format excess' whole' record fs items = .ok result := by
  induction fs generalizing record items with
  | nil =>
    simp only [readItems.go, check_bind_eq_ok_iff] at hread ⊢
    exact ⟨hexcess hread.1, hread.2⟩
  | cons f fs ih =>
    cases items with
    | nil =>
      simp only [readItems.go] at hread ⊢
      split at hread
      · contradiction
      · next hrequired =>
        rw [if_neg hrequired]
        exact ih hread
    | cons item items =>
      simp only [readItems.go, bind_eq_ok_iff] at hread ⊢
      obtain ⟨set, hset, hread⟩ := hread
      exact ⟨set, hset, ih hread⟩

theorem readItems_go_change {excess excess' : List Json → Reading Unit} {whole whole' : List Json}
    (hexcess : ∀ {items}, excess items = .ok () → excess' items = .ok ()) {fs : List (Field σ)}
    (haligned : List.Forall₂ (fun f entry => f.name = entry.1 ∧ Stable limit entry.2 f.read)
      fs fields)
    {front back : List Json} {part : Shape} (hpart : fields[front.length]?.map (·.2) = some part)
    (hchange : Rearranged limit part v v') {result : σ}
    (hread : readItems.go format excess whole record fs (front ++ v :: back) = .ok result) :
    readItems.go format excess' whole' record fs (front ++ v' :: back) = .ok result := by
  induction haligned generalizing record front with
  | nil => simp at hpart
  | cons hentry haligned ih =>
    cases front with
    | nil =>
      cases hpart
      simp only [List.nil_append, readItems.go, bind_eq_ok_iff] at hread ⊢
      obtain ⟨set, hset, hread⟩ := hread
      exact ⟨set, hentry.2 hchange hset, readItems_go_congr hexcess hread⟩
    | cons item front =>
      simp only [List.cons_append, readItems.go, bind_eq_ok_iff] at hread ⊢
      obtain ⟨set, hset, hread⟩ := hread
      exact ⟨set, hset, ih (by simpa using hpart) hread⟩

theorem HasShape.mem_of_lookup (h : format.HasShape limit fields) {name : String} {part : Shape}
    (hpart : fields.lookup name = some part) : ∃ f ∈ format.fields, f.name = name := by
  obtain ⟨front, back, hfields, -⟩ := List.lookup_eq_some_iff.1 hpart
  have hmem : name ∈ format.fields.map (·.name) := by
    rw [(exists_lookup_of_aligned h.distinct h.aligned).2]
    simp [hfields]
  simpa using hmem

theorem HasShape.stable (h : format.HasShape (inside limit) fields) {read : Json → Reading σ}
    {other : Json → Except Fault Unit} {excess : List Json → List Json → Reading Unit}
    (hobject : ∀ members, read (.object members) = format.readObject other members)
    (harray : ∀ items, read (.array items) = format.readItems (excess items) items)
    (hignorable : ∀ {v}, Ignorable (inside limit) v → other v = .ok ())
    (hexcess : ∀ {whole whole' items}, excess whole items = .ok () →
      excess whole' items = .ok ()) :
    Stable limit (.record fields) read := by
  have hother : ∀ {name part v v'}, fields.lookup name = some part →
      (∀ f ∈ format.fields, f.name ≠ name) → Rearranged (inside limit) part v v' →
      other v = .ok () → other v' = .ok () := by
    intro name part v v' hpart hne
    obtain ⟨f, hf, hname⟩ := h.mem_of_lookup hpart
    exact absurd hname (hne f hf)
  refine stable_record ?_ ?_
  · intro members members' hchange result hread
    rw [hobject] at hread ⊢
    exact readObject_of_rearranged h.readsFields hother hignorable hchange hread
  · intro front back part v v' hpart hchange result hread
    rw [harray] at hread ⊢
    exact readItems_go_change hexcess h.aligned hpart hchange hread

theorem HasShape.stable_read (h : format.HasShape (inside limit) fields) :
    Stable limit (.record fields) format.read := by
  refine h.stable (fun _ => rfl) (fun _ => rfl) ?_ id
  rintro v ⟨⟨s, hwritten⟩, -⟩
  exact hwritten.skim

theorem HasShape.stable_readChecked (h : format.HasShape (inside limit) fields) :
    Stable limit (.record fields) format.readChecked := by
  refine h.stable (fun _ => rfl) (fun _ => rfl) (fun _ => rfl) ?_
  intro whole whole' items hexcess
  cases items with
  | nil => rfl
  | cons item items => contradiction

end RecordFormat
end Json
end LuaCodex
