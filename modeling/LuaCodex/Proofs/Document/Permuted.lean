import LuaCodex.Proofs.Document.Regroup

/-!
This module contains what the order of documents means for merging them. The main statement is that
the order does not matter as long as no two documents contradict each other.
-/

namespace LuaCodex

theorem eq_of_perm_of_forall_eq {α : Type} {l l' : List α} (hperm : l.Perm l')
    (h : ∀ x ∈ l, ∀ y ∈ l, x = y) : l = l' := by
  -- All elements are equal, so that both lists are sorted by the relation that always holds.
  have hsorted : ∀ m : List α, m.Pairwise fun _ _ => True := by
    intro m
    exact List.pairwise_of_forall fun _ _ => trivial
  apply List.Perm.eq_of_pairwise _ (hsorted l) (hsorted l') hperm
  intro x y hx hy _ _
  exact h x hx y (hperm.mem_iff.2 hy)

namespace ApiClass

/--
Two entries for one class do not contradict each other: where both name a parent or have a member of
the same name, it is the same one.
-/
structure Agrees (entry entry' : ApiClass) : Prop where
  parent : ∀ parent parent' : String,
    entry.parent = some parent → entry'.parent = some parent' → parent = parent'
  methods : ∀ (name : String) (method method' : Method),
    entry.methods[name]? = some method → entry'.methods[name]? = some method' → method = method'
  events : ∀ (name : String) (event event' : Event),
    entry.events[name]? = some event → entry'.events[name]? = some event' → event = event'

variable {entries entries' : List ApiClass} {entry : ApiClass} {name : String}

theorem filterMap_eq_of_perm {α : Type} {f : ApiClass → Option α} (hperm : entries.Perm entries')
    (h : ∀ e ∈ entries, ∀ e' ∈ entries, ∀ x x', f e = some x → f e' = some x' → x = x') :
    entries.filterMap f = entries'.filterMap f := by
  apply eq_of_perm_of_forall_eq (hperm.filterMap f)
  intro x hx x' hx'
  obtain ⟨e, he, hx⟩ := List.mem_filterMap.1 hx
  obtain ⟨e', he', hx'⟩ := List.mem_filterMap.1 hx'
  exact h e he e' he' x x' hx hx'

theorem IsUnion.of_perm (hperm : entries.Perm entries') (hname : ∀ e ∈ entries, e.name = name)
    (hagree : ∀ e ∈ entries, ∀ e' ∈ entries, e.Agrees e') (h : IsUnion entries entry) :
    IsUnion entries' entry := by
  refine ⟨?_, ?_, ?_, ?_⟩
  · have hnames : entries.map (·.name) = entries'.map (·.name) := by
      apply eq_of_perm_of_forall_eq (hperm.map _)
      simp +contextual [hname]
    rw [← List.head?_map, ← hnames, List.head?_map, h.name]
  · rw [h.parent, filterMap_eq_of_perm hperm]
    intro e he e' he'
    exact (hagree e he e' he').parent
  · intro member
    rw [h.methods, filterMap_eq_of_perm hperm]
    intro e he e' he'
    exact (hagree e he e' he').methods member
  · intro member
    rw [h.events, filterMap_eq_of_perm hperm]
    intro e he e' he'
    exact (hagree e he e' he').events member

end ApiClass

namespace Document

/--
Two documents do not contradict each other on any class.
-/
def Agrees (document document' : Document) : Prop :=
  ∀ (name : String) (entry entry' : ApiClass),
    document.classes[name]? = some entry → document'.classes[name]? = some entry' →
      entry.Agrees entry'

variable {docs docs' : List (String × Document)}

theorem agrees_of_mem_entriesFor {name : String} (h : ∀ d ∈ docs, ∀ d' ∈ docs, d.2.Agrees d'.2)
    {entry entry' : ApiClass} (hentry : entry ∈ entriesFor docs name)
    (hentry' : entry' ∈ entriesFor docs name) : entry.Agrees entry' := by
  obtain ⟨d, hd, hclass⟩ := List.mem_filterMap.1 hentry
  obtain ⟨d', hd', hclass'⟩ := List.mem_filterMap.1 hentry'
  exact h d hd d' hd' name entry entry' hclass hclass'

theorem isUnion_entriesFor_of_perm (hperm : docs.Perm docs') (hkeyed : ∀ d ∈ docs, d.2.IsKeyed)
    (hagree : ∀ d ∈ docs, ∀ d' ∈ docs, d.2.Agrees d'.2) {name : String} {entry : ApiClass}
    (h : ApiClass.IsUnion (entriesFor docs name) entry) :
    ApiClass.IsUnion (entriesFor docs' name) entry := by
  have hname : ∀ e ∈ entriesFor docs name, e.name = name := by
    intro e he
    exact name_of_mem_entriesFor hkeyed he
  apply h.of_perm (hperm.filterMap _) hname
  intro e he e' he'
  exact agrees_of_mem_entriesFor hagree he he'

theorem advisories_unite (docs : List (String × Document)) :
    (unite docs).value.advisories = docs.flatMap (·.2.advisories) := by
  apply advisories_foldl_union

/--
Documents that do not contradict each other can be merged in any order. The classes are the same,
and so are the advisories but for their order.
-/
theorem unite_of_perm (hperm : docs.Perm docs') (hkeyed : ∀ d ∈ docs, d.2.IsKeyed)
    (hagree : ∀ d ∈ docs, ∀ d' ∈ docs, d.2.Agrees d'.2) :
    (unite docs).value.classes = (unite docs').value.classes
      ∧ (unite docs).value.advisories.Perm (unite docs').value.advisories := by
  have hkeyed' : ∀ d ∈ docs', d.2.IsKeyed := by
    intro d hd
    exact hkeyed d (hperm.mem_iff.2 hd)
  have hagree' : ∀ d ∈ docs', ∀ d' ∈ docs', d.2.Agrees d'.2 := by
    intro d hd d' hd'
    exact hagree d (hperm.mem_iff.2 hd) d' (hperm.mem_iff.2 hd')
  constructor
  · apply Std.ExtTreeMap.ext_getElem?
    intro name
    apply Option.ext
    intro entry
    rw [getElem?_unite_eq_some_iff, getElem?_unite_eq_some_iff]
    constructor
    · exact isUnion_entriesFor_of_perm hperm hkeyed hagree
    · exact isUnion_entriesFor_of_perm hperm.symm hkeyed' hagree'
  · rw [advisories_unite, advisories_unite]
    exact hperm.flatMap_right _

theorem unite_of_perm_of_three_files :
    let start : Method := { isStatic := true }
    let base : Document :=
      { classes := (∅ : Table ApiClass).insert "Unit"
          { name := "Unit", methods := (∅ : Table Method).insert "start" start }
        advisories := [.compare "start" ["x"] []] }
    let child : Document :=
      { classes := (∅ : Table ApiClass).insert "Unit" { name := "Unit", parent := some "Element" } }
    let twin : Document :=
      { classes := (∅ : Table ApiClass).insert "Unit"
          { name := "Unit", parent := some "Element",
            methods := (∅ : Table Method).insert "start" start }
        advisories := [.compare "start" ["x", "y"] []] }
    let docs := [("a.lua", base), ("b.lua", child), ("c.lua", twin)]
    docs.Perm docs.reverse ∧ (∀ d ∈ docs, d.2.IsKeyed)
      ∧ (∀ d ∈ docs, ∀ d' ∈ docs, d.2.Agrees d'.2)
      ∧ (unite docs).value.classes = (unite docs.reverse).value.classes
      ∧ (unite docs).value.advisories.Perm (unite docs.reverse).value.advisories := by
  intro start base child twin docs
  have hperm : docs.Perm docs.reverse := docs.reverse_perm.symm
  have hentry : ∀ d ∈ docs, ∀ (name : String) (entry : ApiClass),
      d.2.classes[name]? = some entry → entry.name = name
        ∧ (∀ parent, entry.parent = some parent → parent = "Element")
        ∧ (∀ (member : String) (m : Method), entry.methods[member]? = some m → m = start)
        ∧ entry.events = ∅ := by
    intro d hd name entry h
    simp only [docs, List.mem_cons, List.not_mem_nil, or_false] at hd
    rcases hd with rfl | rfl | rfl
    · obtain ⟨hname, rfl⟩ : "Unit" = name ∧ _ = entry := by
        simpa [base, Std.ExtTreeMap.getElem?_insert] using h
      simp +contextual [hname, Std.ExtTreeMap.getElem?_insert, eq_comm]
    · obtain ⟨hname, rfl⟩ : "Unit" = name ∧ _ = entry := by
        simpa [child, Std.ExtTreeMap.getElem?_insert] using h
      simp [hname, eq_comm]
    · obtain ⟨hname, rfl⟩ : "Unit" = name ∧ _ = entry := by
        simpa [twin, Std.ExtTreeMap.getElem?_insert] using h
      simp +contextual [hname, Std.ExtTreeMap.getElem?_insert, eq_comm]
  have hkeyed : ∀ d ∈ docs, d.2.IsKeyed := by
    intro d hd name entry h
    exact (hentry d hd name entry h).1
  have hagree : ∀ d ∈ docs, ∀ d' ∈ docs, d.2.Agrees d'.2 := by
    intro d hd d' hd' name entry entry' h h'
    obtain ⟨-, hparent, hmethods, hevents⟩ := hentry d hd name entry h
    obtain ⟨-, hparent', hmethods', -⟩ := hentry d' hd' name entry' h'
    refine ⟨?_, ?_, ?_⟩
    · intro parent parent' hsome hsome'
      rw [hparent parent hsome, hparent' parent' hsome']
    · intro member m m' hsome hsome'
      rw [hmethods member m hsome, hmethods' member m' hsome']
    · intro member event event' hsome
      simp [hevents] at hsome
  exact ⟨hperm, hkeyed, hagree, unite_of_perm hperm hkeyed hagree⟩

end Document
end LuaCodex
