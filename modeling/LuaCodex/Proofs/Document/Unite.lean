import Mathlib.Data.List.Induction
import LuaCodex.Document

/-!
This module contains what is found in merged documents. The main statement is that a class has the
name of its first entry, the parent of the last entry that names one, and for each member the last
entry's one.
-/

namespace LuaCodex

theorem foldl_eq_getLast?_or {α β : Type} {op : β → β → β} {f : β → Option α}
    (hf : ∀ x y, f (op x y) = (f y).or (f x)) (start : β) (l : List β) :
    f (l.foldl op start) = (l.filterMap f).getLast?.or (f start) := by
  induction l using List.reverseRecOn with
  | nil => rfl
  | append_singleton l x ih =>
    rw [List.foldl_append, List.foldl_cons, List.foldl_nil, hf, ih]
    rw [List.filterMap_append, List.getLast?_append, Option.or_assoc]
    cases h : f x <;> simp [h]

namespace ApiClass

/--
Some entries for one class have been united into a single one. Each part but the name comes from the
last entry that has it.
-/
structure IsUnion (entries : List ApiClass) (entry : ApiClass) : Prop where
  name : entries.head?.map (·.name) = some entry.name
  parent : entry.parent = (entries.filterMap (·.parent)).getLast?
  methods : ∀ member : String,
    entry.methods[member]? = (entries.filterMap (·.methods[member]?)).getLast?
  events : ∀ member : String,
    entry.events[member]? = (entries.filterMap (·.events[member]?)).getLast?

variable {entries : List ApiClass} {entry entry' : ApiClass}

theorem IsUnion.unique (h : IsUnion entries entry) (h' : IsUnion entries entry') :
    entry = entry' := by
  apply ext_getElem?
  · rw [← Option.some_inj, ← h.name, ← h'.name]
  · rw [h.parent, h'.parent]
  · intro name
    rw [h.methods, h'.methods]
  · intro name
    rw [h.events, h'.events]

@[simp]
theorem name_foldl_union (first : ApiClass) (later : List ApiClass) :
    (later.foldl union first).name = first.name := by
  induction later generalizing first with
  | nil => rfl
  | cons entry later ih => exact ih (first.union entry)

theorem foldl_union_eq_getLast? {α : Type} {f : ApiClass → Option α}
    (hf : ∀ earlier later, f (earlier.union later) = (f later).or (f earlier))
    (first : ApiClass) (later : List ApiClass) :
    f (later.foldl union first) = ((first :: later).filterMap f).getLast? := by
  rw [foldl_eq_getLast?_or hf]
  cases h : f first with
  | none => simp [h]
  | some x => cases hlast : (later.filterMap f).getLast? <;> simp [h, hlast, List.getLast?_cons]

theorem isUnion_foldl_union (first : ApiClass) (later : List ApiClass) :
    IsUnion (first :: later) (later.foldl union first) := by
  constructor
  · simp
  · apply foldl_union_eq_getLast?
    intros
    rfl
  · intro name
    apply foldl_union_eq_getLast? (f := (·.methods[name]?))
    intros
    apply getElem?_methods_union
  · intro name
    apply foldl_union_eq_getLast? (f := (·.events[name]?))
    intros
    apply getElem?_events_union

end ApiClass

namespace Document

/--
The entries that documents have for the class of a name.
-/
def entriesFor (docs : List (String × Document)) (name : String) : List ApiClass :=
  docs.filterMap fun (_, doc) => doc.classes[name]?

theorem getElem?_foldl_addClass_of_ne {entries : List (String × ApiClass)} {key : String}
    (h : ∀ e ∈ entries, e.1 ≠ key) (classes : Table ApiClass) :
    (entries.foldl (fun found e => addClass found e.1 e.2) classes)[key]? = classes[key]? := by
  induction entries generalizing classes with
  | nil => rfl
  | cons e entries ih =>
    rw [List.foldl_cons, ih fun e' he' => h e' (List.mem_cons_of_mem _ he')]
    rw [getElem?_addClass, if_neg (h e List.mem_cons_self)]

theorem getElem?_foldl_addClass_of_mem {entries : List (String × ApiClass)} {key : String}
    {entry : ApiClass} (hdistinct : entries.Pairwise (·.1 ≠ ·.1)) (h : (key, entry) ∈ entries)
    (classes : Table ApiClass) :
    (entries.foldl (fun found e => addClass found e.1 e.2) classes)[key]?
      =
    some (classes[key]?.elim entry (·.union entry)) := by
  induction entries generalizing classes with
  | nil => contradiction
  | cons e entries ih =>
    rw [List.pairwise_cons] at hdistinct
    rw [List.foldl_cons]
    rcases List.mem_cons.1 h with rfl | hmem
    · -- No other entry has this key, so the rest of the fold leaves what is there.
      rw [getElem?_foldl_addClass_of_ne fun e' he' => (hdistinct.1 e' he').symm]
      rw [getElem?_addClass, if_pos rfl]
    · rw [ih hdistinct.2 hmem, getElem?_addClass, if_neg (hdistinct.1 _ hmem)]

theorem getElem?_union {earlier later : Document} {key : String} :
    (earlier.union later).classes[key]?
      =
    Option.merge ApiClass.union earlier.classes[key]? later.classes[key]? := by
  have hdistinct : later.classes.toList.Pairwise (·.1 ≠ ·.1) := by
    simpa using later.classes.distinct_keys_toList
  unfold union
  rw [Std.ExtTreeMap.foldl_eq_foldl_toList]
  cases h : later.classes[key]? with
  | none =>
    rw [getElem?_foldl_addClass_of_ne]
    · cases earlier.classes[key]? <;> rfl
    · rintro e he rfl
      have hsome : later.classes[e.1]? = some e.2 :=
        Std.ExtTreeMap.mem_toList_iff_getElem?_eq_some.1 he
      rw [h] at hsome
      contradiction
  | some entry =>
    rw [getElem?_foldl_addClass_of_mem hdistinct]
    · cases earlier.classes[key]? <;> rfl
    · exact Std.ExtTreeMap.mem_toList_iff_getElem?_eq_some.2 h

theorem empty_union (document : Document) : ({} : Document).union document = document := by
  apply ext_getElem?
  · intro name
    rw [getElem?_union, Std.ExtTreeMap.getElem?_empty]
    cases document.classes[name]? <;> rfl
  · apply List.nil_append

theorem union_eq_of_disjoint {earlier later : Document}
    (h : ∀ name ∈ earlier.classes, name ∉ later.classes) :
    earlier.union later
      =
    { classes := earlier.classes ∪ later.classes
      advisories := earlier.advisories ++ later.advisories } := by
  apply ext_getElem?
  · intro name
    rw [getElem?_union, Std.ExtTreeMap.getElem?_union]
    by_cases hname : name ∈ earlier.classes
    · rw [Std.ExtTreeMap.getElem?_eq_none (h name hname), Option.none_or]
      cases earlier.classes[name]? <;> rfl
    · rw [Std.ExtTreeMap.getElem?_eq_none hname, Option.or_none]
      cases later.classes[name]? <;> rfl
  · rfl

theorem getElem?_foldl_union (docs : List (String × Document)) (base : Document)
    (name : String) :
    (docs.foldl (fun merged (_, doc) => merged.union doc) base).classes[name]?
      =
    (entriesFor docs name).foldl (fun found entry => found.merge ApiClass.union (some entry))
      base.classes[name]? := by
  induction docs generalizing base with
  | nil => rfl
  | cons d docs ih =>
    rw [List.foldl_cons, ih, getElem?_union, entriesFor, entriesFor]
    cases h : d.2.classes[name]? <;> simp [h]

theorem foldl_merge_some (first : ApiClass) (later : List ApiClass) :
    later.foldl (fun found entry => Option.merge ApiClass.union found (some entry)) (some first)
      =
    some (later.foldl ApiClass.union first) := by
  induction later generalizing first with
  | nil => rfl
  | cons entry later ih => exact ih (first.union entry)

theorem getElem?_unite_of_nil {docs : List (String × Document)} {name : String}
    (h : entriesFor docs name = []) : (unite docs).value.classes[name]? = none := by
  unfold unite
  rw [getElem?_foldl_union, h]
  apply Std.ExtTreeMap.getElem?_empty

theorem getElem?_unite_of_cons {docs : List (String × Document)} {name : String}
    {first : ApiClass} {later : List ApiClass} (h : entriesFor docs name = first :: later) :
    (unite docs).value.classes[name]? = some (later.foldl ApiClass.union first) := by
  unfold unite
  rw [getElem?_foldl_union, h, List.foldl_cons, Std.ExtTreeMap.getElem?_empty]
  apply foldl_merge_some

theorem unite_singleton (source : String) (document : Document) :
    (unite [(source, document)]).value = document := by
  apply empty_union

theorem unite_pair (source source' : String) (earlier later : Document) :
    (unite [(source, earlier), (source', later)]).value = earlier.union later := by
  have hunite : (unite [(source, earlier), (source', later)]).value
      = (({} : Document).union earlier).union later := rfl
  rw [hunite, empty_union]

theorem advisories_foldl_union (docs : List (String × Document)) (base : Document) :
    (docs.foldl (fun merged (_, doc) => merged.union doc) base).advisories
      =
    base.advisories ++ docs.flatMap (·.2.advisories) := by
  induction docs generalizing base with
  | nil => simp
  | cons d docs ih => rw [List.foldl_cons, ih]; simp [union]

theorem getElem?_unite_eq_some_iff {docs : List (String × Document)} {name : String}
    {entry : ApiClass} :
    (unite docs).value.classes[name]? = some entry
      ↔
    ApiClass.IsUnion (entriesFor docs name) entry := by
  cases h : entriesFor docs name with
  | nil =>
    rw [getElem?_unite_of_nil h]
    constructor
    · intro hsome
      contradiction
    · intro hunion
      exact absurd hunion.name (by simp)
  | cons first later =>
    have hfold := ApiClass.isUnion_foldl_union first later
    rw [getElem?_unite_of_cons h, Option.some_inj]
    constructor
    · rintro rfl
      exact hfold
    · exact hfold.unique

theorem mem_unite_iff {docs : List (String × Document)} {name : String} :
    name ∈ (unite docs).value.classes ↔ ∃ d ∈ docs, name ∈ d.2.classes := by
  have hentries : (∃ d ∈ docs, name ∈ d.2.classes) ↔ entriesFor docs name ≠ [] := by
    simp [entriesFor, List.filterMap_eq_nil_iff]
  rw [hentries]
  cases h : entriesFor docs name with
  | nil => simp [Std.ExtTreeMap.mem_iff_isSome_getElem?, getElem?_unite_of_nil h]
  | cons first later => simp [Std.ExtTreeMap.mem_iff_isSome_getElem?, getElem?_unite_of_cons h]

/--
A class is found in merged documents if one of them has it. Its parent and each of its members are
those of the last document that has them, whatever the later ones leave out, and its name is that of
the first document. The advisories follow each other.
-/
theorem unite_classes (docs : List (String × Document)) :
    let merged := (unite docs).value
    (∀ name, name ∈ merged.classes ↔ ∃ d ∈ docs, name ∈ d.2.classes)
      ∧ (∀ name entry, merged.classes[name]? = some entry ↔
        ApiClass.IsUnion (entriesFor docs name) entry)
      ∧ merged.advisories = docs.flatMap (·.2.advisories) := by
  refine ⟨?_, ?_, ?_⟩
  · intro name
    exact mem_unite_iff
  · intro name entry
    exact getElem?_unite_eq_some_iff
  · apply advisories_foldl_union

end Document
end LuaCodex
