import LuaCodex.Proofs.Extraction.DescriptionLines
import LuaCodex.Proofs.Extraction.Review
import LuaCodex.Proofs.Meaning.WellFormed

/-!
This module contains the fact that the document of a text is well-formed. Each of its names and
texts is one that a line captures, and a description is made of such texts, one a line. The main
statement is that this holds for merged documents as well.
-/

namespace LuaCodex

open Text

namespace Doc

variable {ms : List Meaning}

theorem isSingleLine_of_mem_textsOf (h : ∀ m ∈ ms, m.IsWellFormed) {text : String}
    (htext : text ∈ textsOf ms) : IsSingleLine text := by
  obtain ⟨m, hm, htext⟩ := List.mem_filterMap.1 (List.mem_filter.1 htext).1
  have hwell := h m hm
  cases m with
  | comment => cases htext; exact hwell
  | deprecated => exact hwell text htext
  | _ => contradiction

theorem lines_description_ofMeanings (h : ∀ m ∈ ms, m.IsWellFormed) (hne : textsOf ms ≠ []) :
    lines (ofMeanings ms).description.toList = (textsOf ms).map String.toList := by
  apply lines_intercalate_newline hne
  intro text htext
  exact isSingleLine_of_mem_textsOf h htext

theorem isWellFormed_ofMeanings (h : ∀ m ∈ ms, m.IsWellFormed)
    (htrimmed : ∀ m ∈ ms, m.HasTrimmedText) : (ofMeanings ms).IsWellFormed := by
  refine ⟨?_, ?_, ?_, ?_⟩
  · unfold ofMeanings
    split <;> simp
  · by_cases hempty : textsOf ms = []
    · left
      simp [ofMeanings, hempty]
    · right
      intro line hline
      rw [lines_description_ofMeanings h hempty] at hline
      obtain ⟨text, htext, rfl⟩ := List.mem_map.1 hline
      refine ⟨?_, strip_eq_self_iff.1 (strip_of_mem_textsOf htrimmed htext)⟩
      simpa using ne_empty_of_mem_textsOf htext
  · intro p hp
    obtain ⟨m, hm, hp⟩ := List.mem_filterMap.1 hp
    have hwell := h m hm
    cases m with
    | param => cases hp; exact hwell
    | _ => contradiction
  · intro r hr
    obtain ⟨m, hm, hr⟩ := List.mem_filterMap.1 hr
    have hwell := h m hm
    cases m with
    | returns => cases hr; exact hwell
    | _ => contradiction

end Doc

namespace Extraction

variable {options : Options} {style : ReturnStyle} {lines : List (List Char)} {i : Nat}

theorem exists_of_lastBetween {α : Type} {f : Nat → Option α} {start stop : Nat} {x : α}
    (h : lastBetween f start stop = some x) : ∃ i, f i = some x := by
  obtain ⟨i, -, hi⟩ := List.mem_filterMap.1 (List.mem_of_getLast? h)
  exact ⟨i, hi⟩

theorem exists_difference_of_toFinset_ne {args documented : List String}
    (h : args.toFinset ≠ documented.toFinset) :
    args.filter (· ∉ documented) ≠ [] ∨ documented.filter (· ∉ args) ≠ [] := by
  by_contra hnone
  rw [not_or, not_not, not_not] at hnone
  have hempty : (Advisory.compare "" args documented).isEmpty = true := by
    rw [Advisory.isEmpty, Bool.and_eq_true, List.isEmpty_iff, List.isEmpty_iff]
    exact hnone
  exact h (isEmpty_compare_iff_toFinset.1 hempty)

section

variable (hlines : ∀ line ∈ lines, '\n' ∉ line)

include hlines

theorem isWellFormed_of_meaningAt? {m : Meaning} (h : meaningAt? style lines i = some m) :
    m.IsWellFormed := by
  obtain ⟨line, hline, hm⟩ := Option.bind_eq_some_iff.1 h
  apply Meaning.isWellFormed_of_ofLine? _ hm
  intro hmem
  exact hlines line (List.mem_of_getElem? hline) (trim_subset line hmem)

theorem isWellFormed_of_mem_blockMeanings {m : Meaning} (h : m ∈ blockMeanings style lines i) :
    m.IsWellFormed := by
  obtain ⟨j, -, hm⟩ := List.mem_filterMap.1 h
  exact isWellFormed_of_meaningAt? hlines hm

theorem isWellFormed_blockDoc : (blockDoc style lines i).IsWellFormed := by
  apply Doc.isWellFormed_ofMeanings
  · intro m hm
    exact isWellFormed_of_mem_blockMeanings hlines hm
  · intro m hm
    exact hasTrimmedText_of_mem_blockMeanings hm

theorem isWellFormed_of_methodAt? {name : String} {method : Method}
    (h : methodAt? style lines name i = some method) :
    IsNameBefore '(' name ∧ method.doc.IsWellFormed := by
  unfold methodAt? at h
  split at h
  · next signature hm =>
    split at h
    · next hname =>
      cases h
      rw [← hname]
      exact ⟨(isWellFormed_of_meaningAt? hlines hm).1, isWellFormed_blockDoc hlines⟩
    · contradiction
  · contradiction

theorem isWellFormed_of_eventAt? {name : String} {event : Event}
    (h : eventAt? style lines name i = some event) :
    IsNameBefore '=' name ∧ event.doc.IsWellFormed := by
  unfold eventAt? at h
  split at h
  · next other hm =>
    split at h
    · next hname =>
      cases h
      rw [← hname]
      exact ⟨isWellFormed_of_meaningAt? hlines hm, isWellFormed_blockDoc hlines⟩
    · contradiction
  · contradiction

theorem isNameBefore_of_parentAt? {parent : String} (h : parentAt? style lines i = some parent) :
    IsNameBefore '(' parent := by
  obtain ⟨m, hm, hparent⟩ := Option.bind_eq_some_iff.1 h
  have hwell := isWellFormed_of_meaningAt? hlines hm
  cases m with
  | inherits => cases hparent; exact hwell
  | _ => contradiction

theorem Describes.isWellFormed {start stop filed : Nat} {entry : ApiClass}
    (h : Describes style lines start stop filed entry) : entry.IsWellFormed := by
  refine ⟨?_, ?_, ?_, ?_⟩
  · exact (isWellFormed_of_meaningAt? hlines h.name).2
  · intro parent hparent
    rw [h.parent] at hparent
    obtain ⟨i, hi⟩ := exists_of_lastBetween hparent
    exact isNameBefore_of_parentAt? hlines hi
  · intro name method hmethod
    rw [h.methods] at hmethod
    obtain ⟨i, hi⟩ := exists_of_lastBetween hmethod
    exact isWellFormed_of_methodAt? hlines hi
  · intro name event hevent
    rw [h.events] at hevent
    obtain ⟨i, hi⟩ := exists_of_lastBetween hevent
    exact isWellFormed_of_eventAt? hlines hi

theorem isWellFormed_of_advisoryAt? {a : Advisory} (h : advisoryAt? style lines i = some a) :
    a.IsWellFormed := by
  unfold advisoryAt? at h
  split at h
  · next signature hm =>
    obtain ⟨hname, hargs⟩ := isWellFormed_of_meaningAt? hlines hm
    simp only at h
    split at h
    · contradiction
    · next hcheck =>
      cases h
      refine ⟨hname.singleLine, ?_, ?_, ?_⟩
      · apply exists_difference_of_toFinset_ne
        intro heq
        exact hcheck (by simp [heq])
      · intro arg harg
        exact hargs arg (List.mem_filter.1 harg).1
      · intro name hname
        obtain ⟨p, hp, rfl⟩ := List.mem_map.1 (List.mem_filter.1 hname).1
        obtain ⟨m, hm, hp⟩ := List.mem_filterMap.1 hp
        have hwell := isWellFormed_of_mem_blockMeanings hlines hm
        cases m with
        | param => cases hp; exact hwell.name.singleLine
        | _ => contradiction
  · contradiction

theorem isWellFormed_ofLines (options : Options) (hne : lines ≠ []) :
    (ofLines options lines).value.IsWellFormed := by
  constructor
  · intro name entry hentry
    obtain ⟨start, stop, hsection, hdescribes⟩ :=
      (getElem?_classes_ofLines_eq_some_iff hne).1 hentry
    obtain ⟨htrimmed, hline⟩ := isWellFormed_of_meaningAt? hlines hsection.starts
    exact ⟨htrimmed, hline, hdescribes.isWellFormed hlines⟩
  · intro a ha
    cases hcheck : options.crossCheck with
    | false =>
      rw [advisories_ofLines_of_not hcheck] at ha
      contradiction
    | true =>
      rw [advisories_ofLines hcheck] at ha
      obtain ⟨i, -, hi⟩ := List.mem_filterMap.1 ha
      exact isWellFormed_of_advisoryAt? hlines hi

end

end Extraction

/--
The document of a text is well-formed, and so is a document that is merged from well-formed ones.
-/
theorem Document.isWellFormed_ofText_and_unite :
    (∀ options text, (ofText options text).value.IsWellFormed)
      ∧ ∀ docs, (∀ d ∈ docs, d.2.IsWellFormed) → (unite docs).value.IsWellFormed := by
  constructor
  · intro options text
    apply Extraction.isWellFormed_ofLines _ options (List.splitOn_ne_nil _ _)
    intro line hline
    exact notMem_of_mem_lines hline
  · intro docs h
    exact isWellFormed_unite h

theorem Document.isWellFormed_ofText_and_unite_of_two_texts :
    let unit := "---@class Unit\n--- Starts \n---@param x\nfunction self.start( x,,y )\n".toList
    let base := "---@class Unit\r\nlocal self = Element ()\n".toList
    let docs := [("Unit.lua", (ofText {} unit).value), ("Base.lua", (ofText {} base).value)]
    (∀ d ∈ docs, d.2.IsWellFormed) ∧ (unite docs).value.IsWellFormed := by
  intro unit base docs
  have hdocs : ∀ d ∈ docs, d.2.IsWellFormed := by
    intro d hd
    simp only [docs, List.mem_cons, List.not_mem_nil, or_false] at hd
    rcases hd with rfl | rfl
    · exact isWellFormed_ofText_and_unite.1 {} unit
    · exact isWellFormed_ofText_and_unite.1 {} base
  exact ⟨hdocs, isWellFormed_ofText_and_unite.2 docs hdocs⟩

end LuaCodex
