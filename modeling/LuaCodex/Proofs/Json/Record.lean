import LuaCodex.Codex.Json
import LuaCodex.Json.Record

/-!
This module contains the reading of texts, lists, tables and records from values that have been made
for them, and what is known of a table or a record once it has been read.
-/

namespace LuaCodex

theorem Table.ofList_toList {α : Type} (table : Table α) :
    Std.ExtTreeMap.ofList table.toList = table := by
  apply Std.ExtTreeMap.ext_getElem?
  intro name
  cases hentry : table[name]? with
  | none =>
    apply Std.ExtTreeMap.getElem?_ofList_of_contains_eq_false
    rw [Std.ExtTreeMap.map_fst_toList_eq_keys]
    simpa [Std.ExtTreeMap.mem_keys] using hentry
  | some entry =>
    apply Std.ExtTreeMap.getElem?_ofList_of_mem Std.ReflCmp.compare_self
      Std.ExtTreeMap.distinct_keys_toList
    exact Std.ExtTreeMap.mem_toList_iff_getElem?_eq_some.mpr hentry

namespace Json

@[simp]
theorem ok_bind {ε α β : Type} (x : α) (f : α → Except ε β) :
    ((.ok x : Except ε α) >>= f) = f x := rfl

@[simp]
theorem map_ok {ε α β : Type} (f : α → β) (x : α) :
    (.ok x : Except ε α).map f = .ok (f x) := rfl

@[simp]
theorem mapError_ok {ε ε' α : Type} (f : ε → ε') (x : α) :
    (.ok x : Except ε α).mapError f = .ok x := rfl

@[simp]
theorem mapError_error {ε ε' α : Type} (f : ε → ε') (e : ε) :
    (.error e : Except ε α).mapError f = .error (f e) := rfl

theorem bind_eq_ok_iff {ε α β : Type} {x : Except ε α} {f : α → Except ε β} {y : β} :
    (x >>= f) = .ok y ↔ ∃ a, x = .ok a ∧ f a = .ok y := by
  cases x <;> simp [bind, Except.bind]

theorem check_bind_eq_ok_iff {ε β : Type} {x : Except ε Unit} {y : Except ε β} {z : β} :
    (x >>= fun _ => y) = .ok z ↔ x = .ok () ∧ y = .ok z := by
  rw [bind_eq_ok_iff]
  constructor
  · rintro ⟨⟨⟩, hx, hy⟩
    exact ⟨hx, hy⟩
  · rintro ⟨hx, hy⟩
    exact ⟨(), hx, hy⟩

theorem map_eq_ok_iff {ε α β : Type} {x : Except ε α} {f : α → β} {y : β} :
    x.map f = .ok y ↔ ∃ a, x = .ok a ∧ f a = y := by
  cases x <;> simp [Except.map]

theorem mapError_eq_ok_iff {ε ε' α : Type} {x : Except ε α} {f : ε → ε'} {y : α} :
    x.mapError f = .ok y ↔ x = .ok y := by
  cases x <;> simp

theorem Quoted.join_chars (text : List Char) :
    join none none (text.map Piece.char) = .ok text := by
  induction text with
  | nil => rfl
  | cons c text ih =>
    rw [List.map_cons, join, ih]
    rfl

theorem Quoted.text_ofText (text : String) : (ofText text).text = .ok text := by
  unfold Quoted.text ofText
  rw [join_chars]
  simp

@[simp]
theorem Quoted.read_ofText (text : String) : (Quoted.ofText text).read = .ok text := by
  unfold Quoted.read
  rw [Quoted.text_ofText]
  rfl

@[simp]
theorem readString_ofText (text : String) : readString (.ofText text) = .ok text := by
  apply Quoted.read_ofText

@[simp]
theorem readBool_bool (b : Bool) : readBool (.bool b) = .ok b := rfl

@[simp]
theorem readOption_readString_ofText (text : String) :
    readOption readString (.ofText text) = .ok (some text) := by
  change (readString (.ofText text)).map some = .ok (some text)
  rw [readString_ofText]
  rfl

@[simp]
theorem readOption_readBool_bool (b : Bool) : readOption readBool (.bool b) = .ok (some b) := rfl

@[simp]
theorem Quoted.skim_ofText (text : String) : (Quoted.ofText text).skim = .ok () := rfl

@[simp]
theorem skim_ofText (text : String) : skim (.ofText text) = .ok () := by
  simp [ofText, skim]

@[simp]
theorem keep_ofText (room : Nat) (text : String) : keep room (.ofText text) = .ok () := by
  simp only [ofText, keep, Quoted.text_ofText]
  rfl

theorem readList_map {α : Type} {encode : α → Json} {read : Json → Reading α}
    (h : ∀ x, read (encode x) = .ok x) (l : List α) :
    readList read (.array (l.map encode)) = .ok l := by
  simp only [readList]
  induction l with
  | nil => rfl
  | cons x l ih =>
    rw [List.map_cons, List.mapM_cons, h, ih]
    rfl

theorem readTable_go_map {α : Type} {encode : α → Json} {read : String → Json → Reading α}
    {entries : List (String × α)} (h : ∀ p ∈ entries, read p.1 (encode p.2) = .ok p.2)
    (table : Table α) :
    readTable.go read table (entries.map fun p => (Quoted.ofText p.1, encode p.2))
      =
    .ok (entries.foldl (fun table p => table.insert p.1 p.2) table) := by
  induction entries generalizing table with
  | nil => rfl
  | cons p entries ih =>
    rw [List.forall_mem_cons] at h
    simp only [List.map_cons, readTable.go, Quoted.read_ofText, ok_bind, h.1]
    exact ih h.2 _

theorem readTable_toJson {α : Type} {encode : α → Json} {read : String → Json → Reading α}
    {table : Table α} (h : ∀ name entry, table[name]? = some entry →
      read name (encode entry) = .ok entry) :
    readTable read (table.toJson encode) = .ok table := by
  have hentries : ∀ p ∈ table.toList, read p.1 (encode p.2) = .ok p.2 := by
    intro p hp
    exact h p.1 p.2 (Std.ExtTreeMap.mem_toList_iff_getElem?_eq_some.mp hp)
  simp only [Table.toJson, ofMembers, readTable, List.map_map]
  refine (readTable_go_map hentries ∅).trans ?_
  rw [← Std.ExtTreeMap.ofList_eq_foldl, Table.ofList_toList]

theorem forall_of_readTable {α : Type} {read : String → Json → Reading α} {P : String → α → Prop}
    (hread : ∀ name v entry, read name v = .ok entry → P name entry) {v : Json} {table : Table α}
    (h : readTable read v = .ok table) :
    ∀ (name : String) (entry : α), table[name]? = some entry → P name entry := by
  cases v with
  | object members =>
    have hgo : ∀ start : Table α, readTable.go read start members = .ok table →
        (∀ (name : String) (entry : α), start[name]? = some entry → P name entry) →
        ∀ (name : String) (entry : α), table[name]? = some entry → P name entry := by
      clear h
      induction members with
      | nil =>
        intro start h hstart
        cases h
        exact hstart
      | cons m members ih =>
        intro start h hstart
        simp only [readTable.go, bind_eq_ok_iff] at h
        obtain ⟨key, -, entry, hentry, h⟩ := h
        refine ih _ h ?_
        intro name other hother
        rw [Std.ExtTreeMap.getElem?_insert] at hother
        split at hother
        · next heq =>
          rw [← Std.LawfulEqCmp.eq_of_compare heq, ← Option.some.inj hother]
          exact hread key m.2 entry hentry
        · exact hstart name other hother
    exact hgo ∅ h (by simp)
  | _ => simp [readTable] at h

namespace RecordFormat

variable {σ : Type} {format : RecordFormat σ} {other : Json → Except Fault Unit}

theorem go_cons_eq_ok_iff {record : σ} {seen : List String} {key : Quoted} {v : Json}
    {members : List (Quoted × Json)} {r : σ × List String} :
    readMembers.go format other record seen ((key, v) :: members) = .ok r
      ↔
    ∃ name, key.read = .ok name
      ∧ ((∃ field set, format.fields.find? (·.name == name) = some field ∧ name ∉ seen
          ∧ field.read v = .ok set
          ∧ readMembers.go format other (set record) (name :: seen) members = .ok r)
        ∨ (format.fields.find? (·.name == name) = none ∧ other v = .ok ()
          ∧ readMembers.go format other record seen members = .ok r)) := by
  simp only [readMembers.go, bind_eq_ok_iff]
  apply exists_congr
  intro name
  apply and_congr_right
  intro _
  cases hfind : format.fields.find? (·.name == name) with
  | none =>
    have hother : (∃ u, other v = .ok u) ↔ other v = .ok () := by
      constructor
      · rintro ⟨⟨⟩, h⟩
        exact h
      · intro h
        exact ⟨(), h⟩
    simpa [bind_eq_ok_iff, mapError_eq_ok_iff] using fun _ => hother
  | some field => by_cases hseen : name ∈ seen <;> simp [hseen, bind_eq_ok_iff]

theorem readObject_eq_ok_iff {members : List (Quoted × Json)} {record : σ} :
    format.readObject other members = .ok record
      ↔
    ∃ seen, readMembers.go format other format.start [] members = .ok (record, seen)
      ∧ ∀ field ∈ format.fields, field.required = true → field.name ∈ seen := by
  simp only [readObject, readMembers, bind_eq_ok_iff, Prod.exists]
  constructor
  · rintro ⟨record', seen, hgo, h⟩
    split at h
    · contradiction
    · next hfind =>
      cases h
      exact ⟨seen, hgo, by simpa using hfind⟩
  · rintro ⟨seen, hgo, hrequired⟩
    refine ⟨record, seen, hgo, ?_⟩
    have hfind : format.fields.find? (fun field => field.required && field.name ∉ seen) = none := by
      simpa using hrequired
    rw [hfind]

/--
A property that holds of a record without any field and is kept when a field is put in.
-/
structure IsKept (format : RecordFormat σ) (P : σ → Prop) : Prop where
  start : P format.start
  set : ∀ field ∈ format.fields, ∀ v set, field.read v = .ok set → ∀ record, P record →
    P (set record)

variable {P : σ → Prop}

theorem IsKept.of_go (h : format.IsKept P) {members : List (Quoted × Json)} {record : σ}
    {seen : List String} {r : σ × List String} (hrecord : P record)
    (hgo : readMembers.go format other record seen members = .ok r) : P r.1 := by
  induction members generalizing record seen with
  | nil =>
    cases hgo
    exact hrecord
  | cons m members ih =>
    obtain ⟨name, -, ⟨field, set, hfind, -, hread, hgo⟩ | ⟨-, -, hgo⟩⟩ := go_cons_eq_ok_iff.1 hgo
    · exact ih (h.set field (List.mem_of_find?_eq_some hfind) _ set hread record hrecord) hgo
    · exact ih hrecord hgo

theorem IsKept.of_readItems_go (h : format.IsKept P) {excess : List Json → Reading Unit}
    {whole : List Json} {fields : List (Field σ)} {items : List Json} {record r : σ}
    (hfields : fields ⊆ format.fields) (hrecord : P record)
    (hgo : readItems.go format excess whole record fields items = .ok r) : P r := by
  induction fields generalizing record items with
  | nil =>
    simp only [readItems.go, bind_eq_ok_iff, pure, Except.pure] at hgo
    obtain ⟨-, -, hr⟩ := hgo
    cases hr
    exact hrecord
  | cons field fields ih =>
    rw [List.cons_subset] at hfields
    cases items with
    | nil =>
      simp only [readItems.go] at hgo
      split at hgo
      · contradiction
      · exact ih hfields.2 hrecord hgo
    | cons item items =>
      simp only [readItems.go, bind_eq_ok_iff] at hgo
      obtain ⟨set, hread, hgo⟩ := hgo
      exact ih hfields.2 (h.set field hfields.1 item set hread record hrecord) hgo

theorem IsKept.of_read (h : format.IsKept P) {v : Json} {record : σ}
    (hread : format.read v = .ok record) : P record := by
  cases v with
  | object members =>
    obtain ⟨seen, hgo, -⟩ := readObject_eq_ok_iff.1 hread
    exact h.of_go h.start hgo
  | array items => exact h.of_readItems_go (List.Subset.refl _) h.start hread
  | _ => simp [read] at hread

theorem go_field {field : Field σ} {name : String} {v : Json} {set : σ → σ} {seen : List String}
    (hfield : format.fields.find? (·.name == name) = some field) (hseen : name ∉ seen)
    (hread : field.read v = .ok set) (record : σ) (members : List (Quoted × Json)) :
    readMembers.go format other record seen ((.ofText name, v) :: members)
      =
    readMembers.go format other (set record) (name :: seen) members := by
  simp only [readMembers.go, Quoted.read_ofText, ok_bind, hfield, hseen, hread, ↓reduceIte]

theorem go_other {name : String} {v : Json} {seen : List String}
    (hfield : format.fields.find? (·.name == name) = none) (hother : other v = .ok ())
    (record : σ) (members : List (Quoted × Json)) :
    readMembers.go format other record seen ((.ofText name, v) :: members)
      =
    readMembers.go format other record seen members := by
  simp only [readMembers.go, Quoted.read_ofText, ok_bind, hfield, hother]
  rfl

theorem go_others {members : List (String × Json)} {seen : List String}
    (hfield : ∀ m ∈ members, format.fields.find? (·.name == m.1) = none)
    (hother : ∀ m ∈ members, other m.2 = .ok ()) (record : σ) :
    readMembers.go format other record seen (members.map fun (key, value) => (.ofText key, value))
      =
    .ok (record, seen) := by
  induction members with
  | nil => rfl
  | cons m members ih =>
    rw [List.forall_mem_cons] at hfield hother
    rw [List.map_cons, go_other hfield.1 hother.1]
    exact ih hfield.2 hother.2

end RecordFormat
end Json
end LuaCodex
