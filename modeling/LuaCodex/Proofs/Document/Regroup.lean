import LuaCodex.Proofs.Document.Unite

/-!
This module contains the laws of merging. The main statement is that documents can be merged in
groups before the results are merged, and that an earlier copy of a document adds nothing to a later
one.
-/

namespace LuaCodex

theorem Table.union_assoc {α : Type} (a b c : Table α) : a ∪ b ∪ c = a ∪ (b ∪ c) := by
  apply Std.ExtTreeMap.ext_getElem?
  intro name
  simp only [Std.ExtTreeMap.getElem?_union, Option.or_assoc]

namespace ApiClass

variable {entries entries' front middle last : List ApiClass} {entry : ApiClass} {name : String}

theorem union_assoc (a b c : ApiClass) : (a.union b).union c = a.union (b.union c) := by
  simp only [union, Option.or_assoc, Table.union_assoc]

theorem IsUnion.congr (hname : entries.head?.map (·.name) = entries'.head?.map (·.name))
    (hlast : ∀ {α : Type} (f : ApiClass → Option α),
      (entries.filterMap f).getLast? = (entries'.filterMap f).getLast?)
    (h : IsUnion entries entry) : IsUnion entries' entry := by
  refine ⟨?_, ?_, ?_, ?_⟩
  · rw [← hname, h.name]
  · rw [← hlast, h.parent]
  · intro member
    rw [← hlast, h.methods]
  · intro member
    rw [← hlast, h.events]

theorem head?_name_append_copy (h : ∀ e ∈ front ++ middle ++ last, e.name = name) :
    (front ++ last ++ middle ++ last).head?.map (·.name)
      =
    (front ++ middle ++ last).head?.map (·.name) := by
  cases front with
  | cons => rfl
  | nil =>
    cases last with
    | nil => rfl
    | cons e last =>
      -- The copy comes first now, but all entries have the same name.
      cases middle with
      | nil => rfl
      | cons e' middle =>
        have he := h e (by simp)
        have he' := h e' (by simp)
        simp [he, he']

theorem getLast?_append_copy {α : Type} (front middle last : List α) :
    (front ++ last ++ middle ++ last).getLast? = (front ++ middle ++ last).getLast? := by
  simp only [List.getLast?_append]
  cases last.getLast? with
  | none => simp
  | some => rfl

theorem isUnion_append_copy_iff (h : ∀ e ∈ front ++ middle ++ last, e.name = name) :
    IsUnion (front ++ last ++ middle ++ last) entry ↔ IsUnion (front ++ middle ++ last) entry := by
  have hname := head?_name_append_copy h
  have hlast : ∀ {α : Type} (f : ApiClass → Option α),
      ((front ++ last ++ middle ++ last).filterMap f).getLast?
        = ((front ++ middle ++ last).filterMap f).getLast? := by
    intro α f
    simp only [List.filterMap_append, getLast?_append_copy]
  constructor
  · exact IsUnion.congr hname hlast
  · exact IsUnion.congr hname.symm fun f => (hlast f).symm

end ApiClass

namespace Document

/--
Each class of a document stands under its own name.
-/
def IsKeyed (document : Document) : Prop :=
  ∀ (name : String) (entry : ApiClass), document.classes[name]? = some entry → entry.name = name

variable {name : String}

theorem union_assoc (a b c : Document) : (a.union b).union c = a.union (b.union c) := by
  apply ext_getElem?
  · intro name
    have : Std.Associative ApiClass.union := ⟨ApiClass.union_assoc⟩
    simp only [getElem?_union]
    apply Std.Associative.assoc
  · apply List.append_assoc

theorem union_empty (document : Document) : document.union {} = document := by
  apply ext_getElem?
  · intro name
    rw [getElem?_union, Std.ExtTreeMap.getElem?_empty]
    cases document.classes[name]? <;> rfl
  · apply List.append_nil

theorem foldl_union (docs : List (String × Document)) (base : Document) :
    docs.foldl (fun merged (_, doc) => merged.union doc) base = base.union (unite docs).value := by
  induction docs generalizing base with
  | nil => exact (union_empty base).symm
  | cons d docs ih =>
    have hunite : (unite (d :: docs)).value = d.2.union (unite docs).value := by
      rw [← empty_union d.2]
      exact ih (({} : Document).union d.2)
    rw [List.foldl_cons, ih, hunite, union_assoc]

theorem unite_append (docs docs' : List (String × Document)) :
    (unite (docs ++ docs')).value = (unite docs).value.union (unite docs').value := by
  have hunite : (unite (docs ++ docs')).value
      = (docs ++ docs').foldl (fun merged (_, doc) => merged.union doc) {} := rfl
  rw [hunite, List.foldl_append, foldl_union docs']
  rfl

theorem unite_cons (source : String) (document : Document) (docs : List (String × Document)) :
    (unite ((source, document) :: docs)).value = document.union (unite docs).value := by
  rw [← List.singleton_append, unite_append, unite_singleton]

theorem unite_groups (groups : List (String × List (String × Document))) :
    (unite (groups.map fun (source, docs) => (source, (unite docs).value))).value
      =
    (unite (groups.flatMap (·.2))).value := by
  induction groups with
  | nil => rfl
  | cons group groups ih => rw [List.map_cons, unite_cons, ih, List.flatMap_cons, unite_append]

theorem entriesFor_append (docs docs' : List (String × Document)) :
    entriesFor (docs ++ docs') name = entriesFor docs name ++ entriesFor docs' name := by
  apply List.filterMap_append

theorem name_of_mem_entriesFor {docs : List (String × Document)} (h : ∀ d ∈ docs, d.2.IsKeyed)
    {entry : ApiClass} (hentry : entry ∈ entriesFor docs name) : entry.name = name := by
  obtain ⟨d, hd, hclass⟩ := List.mem_filterMap.1 hentry
  exact h d hd name entry hclass

theorem classes_unite_append_copy {front middle : List (String × Document)}
    {document : Document} {source : String}
    (h : ∀ d ∈ front ++ middle ++ [(source, document)], d.2.IsKeyed) (source' : String) :
    (unite (front ++ [(source', document)] ++ middle ++ [(source, document)])).value.classes
      =
    (unite (front ++ middle ++ [(source, document)])).value.classes := by
  apply Std.ExtTreeMap.ext_getElem?
  intro name
  apply Option.ext
  intro entry
  have hcopy : entriesFor [(source', document)] name = entriesFor [(source, document)] name := rfl
  have hnames : ∀ e ∈ entriesFor (front ++ middle ++ [(source, document)]) name, e.name = name := by
    intro e he
    exact name_of_mem_entriesFor h he
  simp only [entriesFor_append] at hnames
  simp only [getElem?_unite_eq_some_iff, entriesFor_append, hcopy]
  exact ApiClass.isUnion_append_copy_iff hnames

/--
Documents can be cut into groups and each group can be merged first. A document that comes again
later can be left out, as far as classes are concerned, if each class stands under its own name.
-/
theorem unite_in_groups :
    (∀ groups : List (String × List (String × Document)),
      (unite (groups.map fun (source, docs) => (source, (unite docs).value))).value
        = (unite (groups.flatMap (·.2))).value)
      ∧ (∀ source docs docs',
        (unite ((source, (unite docs).value) :: docs')).value = (unite (docs ++ docs')).value)
      ∧ (∀ source document, (unite [(source, document)]).value = document)
      ∧ ∀ front middle document source source',
        (∀ d ∈ front ++ middle ++ [(source, document)], d.2.IsKeyed) →
        (unite (front ++ [(source', document)] ++ middle ++ [(source, document)])).value.classes
          = (unite (front ++ middle ++ [(source, document)])).value.classes := by
  refine ⟨unite_groups, ?_, unite_singleton, ?_⟩
  · intro source docs docs'
    rw [unite_cons, unite_append]
  · intro front middle document source source' h
    exact classes_unite_append_copy h source'

theorem unite_in_groups_of_three_files :
    let unit : Document :=
      { classes := (∅ : Table ApiClass).insert "Unit" { name := "Unit", parent := some "Screen" } }
    let other : Document :=
      { classes := (∅ : Table ApiClass).insert "Unit"
          { name := "Unit", methods := (∅ : Table Method).insert "start" { isStatic := true } } }
    (∀ d ∈ [("a.lua", other), ("c.lua", other), ("d.lua", unit)], d.2.IsKeyed)
      ∧ (unite [("a.lua", other), ("b.lua", unit), ("c.lua", other), ("d.lua", unit)]).value.classes
        = (unite [("a.lua", other), ("c.lua", other), ("d.lua", unit)]).value.classes := by
  intro unit other
  have hunit : unit.IsKeyed := by
    intro name entry h
    simp [unit, Std.ExtTreeMap.getElem?_insert] at h
    rw [← h.2, h.1]
  have hother : other.IsKeyed := by
    intro name entry h
    simp [other, Std.ExtTreeMap.getElem?_insert] at h
    rw [← h.2, h.1]
  have hkeyed : ∀ d ∈ [("a.lua", other), ("c.lua", other), ("d.lua", unit)], d.2.IsKeyed := by
    simp [hunit, hother]
  exact ⟨hkeyed, unite_in_groups.2.2.2 [("a.lua", other)] [("c.lua", other)] unit _ _ hkeyed⟩

end Document
end LuaCodex
