import LuaCodex.Proofs.Document.Unite
import LuaCodex.Text.Blank
import LuaCodex.Text.Cut

/-!
This module contains well-formed documents. In these, names are trimmed and free of the sign that
ends them, no text but a description has a line break, and no line of a description is blank. Merged
documents are well-formed if the single ones are.
-/

namespace LuaCodex

open Text

/--
A text without line breaks.
-/
def IsSingleLine (s : String) : Prop :=
  '\n' ∉ s.toList

instance (s : String) : Decidable (IsSingleLine s) :=
  inferInstanceAs (Decidable (_ ∉ _))

@[simp]
theorem isSingleLine_append_iff {s t : String} :
    IsSingleLine (s ++ t) ↔ IsSingleLine s ∧ IsSingleLine t := by
  simp [IsSingleLine]

/--
A name that is ended by a sign.
-/
structure IsNameBefore (sign : Char) (s : String) : Prop where
  ne_empty : s ≠ ""
  trimmed : strip s = s
  notMem : sign ∉ s.toList
  singleLine : IsSingleLine s

/--
A text that is ended by a space.
-/
structure IsField (s : String) : Prop where
  notMem : ' ' ∉ s.toList
  singleLine : IsSingleLine s

/--
A parameter as its tag declares it: only its description can have spaces.
-/
structure Param.IsWellFormed (p : Param) : Prop where
  name : IsField p.name
  type : IsField p.type
  description : IsSingleLine p.description

/--
A return value as its tag declares it: only its description can have spaces.
-/
structure Return.IsWellFormed (r : Return) : Prop where
  type : IsField r.type
  name : ∀ name, r.name = some name → IsField name
  description : IsSingleLine r.description

/--
A block whose parameters and return values are well-formed and whose description, if there is one,
consists of trimmed lines that are not blank. It is marked as deprecated or not marked at all.
-/
structure Doc.IsWellFormed (doc : Doc) : Prop where
  deprecated : doc.deprecated ≠ some false
  description : doc.description = ""
    ∨ ∀ line ∈ lines doc.description.toList, line ≠ [] ∧ trim line = line
  params : ∀ p ∈ doc.params, p.IsWellFormed
  returns : ∀ r ∈ doc.returns, r.IsWellFormed

/--
A class with well-formed blocks, in which the names of the parent and the members are trimmed and
free of the sign that ends them.
-/
structure ApiClass.IsWellFormed (entry : ApiClass) : Prop where
  name : IsSingleLine entry.name
  parent : ∀ parent, entry.parent = some parent → IsNameBefore '(' parent
  methods : ∀ (name : String) (method : Method), entry.methods[name]? = some method →
    IsNameBefore '(' name ∧ method.doc.IsWellFormed
  events : ∀ (name : String) (event : Event), entry.events[name]? = some event →
    IsNameBefore '=' name ∧ event.doc.IsWellFormed

/--
An advisory that has something to say. Arguments are written between commas, so their names have
none.
-/
structure Advisory.IsWellFormed (a : Advisory) : Prop where
  function : IsSingleLine a.function
  incomplete : a.undocumented ≠ [] ∨ a.undeclared ≠ []
  undocumented : ∀ arg ∈ a.undocumented, IsNameBefore ',' arg
  undeclared : ∀ name ∈ a.undeclared, IsSingleLine name

/--
A document with well-formed classes and advisories, in which the names of the classes are trimmed.
-/
structure Document.IsWellFormed (document : Document) : Prop where
  classes : ∀ (name : String) (entry : ApiClass), document.classes[name]? = some entry →
    strip name = name ∧ IsSingleLine name ∧ entry.IsWellFormed
  advisories : ∀ a ∈ document.advisories, a.IsWellFormed

namespace ApiClass

variable {entries : List ApiClass} {entry : ApiClass}

theorem exists_of_getLast?_filterMap {α : Type} {f : ApiClass → Option α} {x : α}
    (h : (entries.filterMap f).getLast? = some x) : ∃ e ∈ entries, f e = some x := by
  rw [← List.mem_filterMap]
  exact List.mem_of_getLast? h

theorem IsUnion.exists_name (h : IsUnion entries entry) : ∃ e ∈ entries, e.name = entry.name := by
  obtain ⟨e, he, hname⟩ := Option.map_eq_some_iff.1 h.name
  exact ⟨e, List.mem_of_head? he, hname⟩

theorem IsUnion.isWellFormed (h : IsUnion entries entry)
    (hentries : ∀ e ∈ entries, e.IsWellFormed) : entry.IsWellFormed := by
  refine ⟨?_, ?_, ?_, ?_⟩
  · obtain ⟨e, he, hname⟩ := h.exists_name
    rw [← hname]
    exact (hentries e he).name
  · intro parent hparent
    rw [h.parent] at hparent
    obtain ⟨e, he, hparent⟩ := exists_of_getLast?_filterMap hparent
    exact (hentries e he).parent parent hparent
  · intro name method hmethod
    rw [h.methods] at hmethod
    obtain ⟨e, he, hmethod⟩ := exists_of_getLast?_filterMap hmethod
    exact (hentries e he).methods name method hmethod
  · intro name event hevent
    rw [h.events] at hevent
    obtain ⟨e, he, hevent⟩ := exists_of_getLast?_filterMap hevent
    exact (hentries e he).events name event hevent

end ApiClass

namespace Document

theorem isWellFormed_unite {docs : List (String × Document)} (h : ∀ d ∈ docs, d.2.IsWellFormed) :
    (unite docs).value.IsWellFormed := by
  constructor
  · intro name entry hentry
    have hunion := getElem?_unite_eq_some_iff.1 hentry
    have hentries : ∀ e ∈ entriesFor docs name,
        strip name = name ∧ IsSingleLine name ∧ e.IsWellFormed := by
      intro e he
      obtain ⟨d, hd, hclass⟩ := List.mem_filterMap.1 he
      exact (h d hd).classes name e hclass
    obtain ⟨e, he, -⟩ := hunion.exists_name
    obtain ⟨htrimmed, hline, -⟩ := hentries e he
    exact ⟨htrimmed, hline, hunion.isWellFormed fun e he => (hentries e he).2.2⟩
  · intro a ha
    have hadvisories := advisories_foldl_union docs {}
    rw [List.nil_append] at hadvisories
    obtain ⟨d, hd, ha⟩ := List.mem_flatMap.1 (hadvisories ▸ ha)
    exact (h d hd).advisories a ha

end Document
end LuaCodex
