import LuaCodex.Codex.Markdown
import LuaCodex.Proofs.Codex.SingleLines
import LuaCodex.Proofs.Markdown.Page

/-!
This module contains the outline of the Markdown page of a codex. The main statement is that the
headings on the page are those of the outline, together with the lines that look like headings in
descriptions, and that the index and the table of globals have one line for each entry.
-/

namespace LuaCodex

open Markdown

/--
The headings in the section of a class.
-/
def ApiClass.outline (name : String) (entry : ApiClass) : List String :=
  ["## " ++ name]
    ++ (if entry.methods.isEmpty then [] else ["### Methods"])
    ++ entry.methods.toList.flatMap (fun (key, method) =>
      ("#### " ++ name ++ (if method.isStatic then "." else ":") ++ key)
        :: headingsOf method.doc.description)
    ++ (if entry.events.isEmpty then [] else ["### Events"])
    ++ entry.events.toList.flatMap (fun (key, event) =>
      ("#### " ++ key) :: headingsOf event.doc.description)

/--
The headings on the page of a codex.
-/
def Codex.outline (c : Codex) : List String :=
  ["# Codex"]
    ++ (if c.classes.isEmpty then [] else ["## Index"])
    ++ c.classes.toList.flatMap (fun (name, entry) => entry.outline name)
    ++ (if c.globals.isEmpty then [] else ["## Globals"])

/--
The lines of the table of globals.
-/
def Codex.globalsTable (c : Codex) : List String :=
  "| Name | Type |" :: "| --- | --- |" :: c.globals.toList.map row
where
  row (x : String × Global) : String :=
    "| `" ++ x.1 ++ "` | " ++ x.2.type ++ " |"

/--
The lines of a page mirror a codex. Its headings are those of the outline, the index has one item
for each class, and the table of globals has one row for each global.
-/
structure Codex.IsMirroredBy (c : Codex) (lines : List String) : Prop where
  headings : lines.filter isHeading = c.outline
  index : ∀ first, c.classes.keys.head? = some first →
    ∃ items rest,
      lines = ["# Codex", "", "## Index"] ++ items ++ ("## " ++ first) :: rest
        ∧ items.filter isHeading = []
        ∧ items.filter (· ≠ "") = c.classes.keys.map indexItem
  globals : c.globals.isEmpty = false →
    ∃ front table,
      lines = front ++ "## Globals" :: table
        ∧ table.filter isHeading = []
        ∧ table.filter (· ≠ "") = c.globalsTable

theorem Param.isSingleLine_item {p : Param} (h : p.HasSingleLines) : IsSingleLine p.item := by
  unfold item
  split <;> split <;> simp +decide [h.name, h.type, h.description]

theorem Return.isSingleLine_item {r : Return} (h : r.HasSingleLines) : IsSingleLine r.item := by
  have hname : IsSingleLine (r.name.getD "") := by
    cases hname : r.name with
    | none => decide
    | some name => exact h.name name hname
  unfold item
  split <;> split <;> simp +decide [hname, h.type, h.description]

theorem outline_labelledList {label : String} {items : List String} (hlabel : IsSingleLine label)
    (hitems : ∀ item ∈ items, IsSingleLine item) : (labelledList label items).outline = [] := by
  have hlabel : headingsOf ("**" ++ label ++ "**") = [] := by
    apply headingsOf_of_isSingleLine
    · simp +decide [hlabel]
    · rw [String.append_assoc]
      exact isHeading_append_of_head?_ne rfl (by decide)
  have hlines : Page.outline (items.map fun item => .line ("* " ++ item)) = [] := by
    apply outline_map_line
    · intro item hitem
      simp +decide [hitems item hitem]
    · intro item _
      exact isHeading_append_of_head?_ne rfl (by decide)
  unfold labelledList
  split
  · rfl
  · rw [outline_append, outline_cons, outline_paragraph, hlabel, hlines, outline_gap]
    rfl

theorem Doc.outline_page {doc : Doc} (h : doc.HasSingleLines) :
    doc.page.outline = headingsOf doc.description := by
  have hparams : (labelledList "Parameters" (doc.params.map Param.item)).outline = [] := by
    apply outline_labelledList (by decide)
    intro item hitem
    obtain ⟨p, hp, rfl⟩ := List.mem_map.1 hitem
    exact Param.isSingleLine_item (h.params p hp)
  have hreturns : (labelledList "Returns" (doc.returns.map Return.item)).outline = [] := by
    apply outline_labelledList (by decide)
    intro item hitem
    obtain ⟨r, hr, rfl⟩ := List.mem_map.1 hitem
    exact Return.isSingleLine_item (h.returns r hr)
  have hmark : Page.outline
      (if doc.isDeprecated then [.paragraph "_Deprecated._"] else []) = [] := by
    split
    · rw [outline_paragraph]
      exact headingsOf_of_isSingleLine (by decide) (by decide)
    · rfl
  have hdescription : Page.outline
      (if doc.description = "" then [] else [.paragraph doc.description])
        =
      headingsOf doc.description := by
    split
    · next hempty =>
      rw [hempty]
      exact (headingsOf_of_isSingleLine (by decide) (by decide)).symm
    · exact outline_paragraph doc.description
  rw [page, outline_append, outline_append, outline_append, hparams, hreturns, hmark, hdescription,
    List.nil_append, List.append_nil, List.append_nil]

theorem outline_memberSection {α : Type} {title : String} {t : Table α}
    {f : String × α → String × Doc} (htitle : IsSingleLine title)
    (hf : ∀ x ∈ t.toList, IsSingleLine (f x).1 ∧ (f x).2.HasSingleLines) :
    (memberSection title (t.toList.map f)).outline
      =
    (if t.isEmpty then [] else ["### " ++ title])
      ++ t.toList.flatMap fun x => ("#### " ++ (f x).1) :: headingsOf (f x).2.description := by
  have hmembers : Page.outline
      ((t.toList.map f).flatMap fun member => .heading 4 member.1 :: member.2.page)
        =
      t.toList.flatMap fun x => ("#### " ++ (f x).1) :: headingsOf (f x).2.description := by
    rw [List.flatMap_map, outline_flatMap]
    apply List.flatMap_congr
    intro x hx
    obtain ⟨hname, hdoc⟩ := hf x hx
    rw [outline_cons, outline_heading hname (by decide), Doc.outline_page hdoc]
    rfl
  have hempty : t.toList.map f = [] ↔ t.isEmpty := by
    rw [List.map_eq_nil_iff, ← List.isEmpty_iff, Std.ExtTreeMap.isEmpty_toList]
  simp only [memberSection, hempty]
  split
  · next h =>
    rw [List.map_eq_nil_iff.1 (hempty.2 h)]
    rfl
  · rw [outline_cons, outline_heading htitle (by decide)]
    exact congrArg (["### " ++ title] ++ ·) hmembers

theorem Method.isSingleLine_qualifiedName {className name : String} (m : Method)
    (hclass : IsSingleLine className) (hname : IsSingleLine name) :
    IsSingleLine (m.qualifiedName className name) := by
  unfold qualifiedName
  split <;> simp +decide [hclass, hname]

theorem ApiClass.outline_parentNote {parent : String} (h : IsSingleLine parent) :
    Page.outline [page.parentNote parent] = [] := by
  unfold page.parentNote
  rw [outline_paragraph, String.append_assoc]
  apply headingsOf_of_isSingleLine
  · simp +decide [h]
  · exact isHeading_append_of_head?_ne rfl (by decide)

theorem ApiClass.outline_page {name : String} {entry : ApiClass} (hname : IsSingleLine name)
    (h : entry.HasSingleLines) : (entry.page name).outline = entry.outline name := by
  have hparent : Page.outline (entry.parent.map page.parentNote).toList = [] := by
    cases hparent : entry.parent with
    | none => rfl
    | some parent => exact outline_parentNote (h.parent parent hparent)
  unfold page outline
  rw [List.cons_append, List.cons_append, outline_cons, outline_heading hname (by decide),
    outline_append, outline_append, hparent, List.nil_append, outline_memberSection (by decide),
    outline_memberSection (by decide)]
  · simp only [List.append_assoc]
    rfl
  · rw [Table.forall_mem_toList]
    exact h.events
  · rw [Table.forall_mem_toList]
    intro key m hm
    obtain ⟨hkey, hdoc⟩ := h.methods key m hm
    exact ⟨m.isSingleLine_qualifiedName hname hkey, hdoc⟩

theorem ApiClass.exists_lines_page {name : String} (h : IsSingleLine name) (entry : ApiClass) :
    ∃ rest, (entry.page name).flatMap Element.lines = ("## " ++ name) :: rest := by
  have hline : IsSingleLine ("## " ++ name) := by simpa +decide using h
  have hheading : (Element.heading 2 name).lines = ["## " ++ name, ""] :=
    congrArg (· ++ [""]) (linesOf_of_isSingleLine hline)
  rw [page, List.cons_append, List.cons_append, List.flatMap_cons, hheading]
  exact ⟨_, rfl⟩

namespace Codex

theorem isSingleLine_anchor (name : String) : IsSingleLine (anchor name) := by
  have hchar : ∀ c : Char, anchor.kept c = true → anchor.hyphenated c ≠ '\n' := by
    intro c hc heq
    unfold anchor.hyphenated at heq
    split at heq
    · exact absurd heq (by decide)
    · subst heq
      exact absurd hc (by decide +kernel)
  rw [IsSingleLine, anchor, String.toList_ofList]
  intro hmem
  obtain ⟨c, hc, heq⟩ := List.mem_map.1 hmem
  exact hchar c (List.mem_filter.1 hc).2 heq

theorem isSingleLine_indexItem {name : String} (h : IsSingleLine name) :
    IsSingleLine (indexItem name) := by
  simp +decide [indexItem, h, isSingleLine_anchor]

theorem isHeading_indexItem (name : String) : isHeading (indexItem name) = false := by
  unfold indexItem
  rw [String.append_assoc, String.append_assoc, String.append_assoc]
  exact isHeading_append_of_head?_ne rfl (by decide)

theorem indexItem_ne_empty (name : String) : indexItem name ≠ "" := by
  simp [indexItem]

variable {c : Codex}

theorem HasSingleLines.of_mem_keys (h : c.HasSingleLines) {name : String}
    (hname : name ∈ c.classes.keys) : IsSingleLine name := by
  rw [Std.ExtTreeMap.mem_keys, Std.ExtTreeMap.mem_iff_isSome_getElem?] at hname
  obtain ⟨entry, hentry⟩ := Option.isSome_iff_exists.1 hname
  exact (h.classes name entry hentry).1

theorem lines_indexPage (h : c.HasSingleLines) (hne : c.classes.isEmpty = false) :
    c.indexPage.flatMap Element.lines
      =
    "## Index" :: "" :: (c.classes.keys.map indexItem ++ [""]) := by
  have hitems : ∀ name ∈ c.classes.keys, IsSingleLine (indexItem name) := by
    intro name hname
    exact isSingleLine_indexItem (h.of_mem_keys hname)
  have hheading : (Element.heading 2 "Index").lines = ["## Index", ""] := by decide
  rw [indexPage, hne, if_neg (by decide), List.cons_append, List.flatMap_cons, List.flatMap_append,
    lines_map_line hitems, hheading]
  rfl

theorem filter_isHeading_map_indexItem (names : List String) :
    (names.map indexItem).filter isHeading = [] := by
  rw [List.filter_eq_nil_iff, List.forall_mem_map]
  simp [isHeading_indexItem]

theorem outline_indexPage (h : c.HasSingleLines) :
    c.indexPage.outline = if c.classes.isEmpty then [] else ["## Index"] := by
  cases hempty : c.classes.isEmpty with
  | true => rw [indexPage, hempty]; rfl
  | false =>
    rw [Page.outline, lines_indexPage h hempty, List.filter_cons_of_pos (by decide),
      List.filter_cons_of_neg (by decide), List.filter_append, filter_isHeading_map_indexItem]
    rfl

theorem lines_globalsPage (h : c.HasSingleLines) (hne : c.globals.isEmpty = false) :
    c.globalsPage.flatMap Element.lines = "## Globals" :: "" :: c.globalsTable := by
  have hrows : ∀ x ∈ c.globals.toList, IsSingleLine (globalsTable.row x) := by
    rw [Table.forall_mem_toList]
    intro name global hglobal
    obtain ⟨hname, htype⟩ := h.globals name global hglobal
    simp +decide [globalsTable.row, hname, htype]
  have hpage : c.globalsPage
      =
    [.heading 2 "Globals", .line "| Name | Type |", .line "| --- | --- |"]
      ++ c.globals.toList.map fun x => .line (globalsTable.row x) := by
    rw [globalsPage, hne]
    rfl
  rw [hpage, List.flatMap_append, lines_map_line hrows]
  rfl

theorem filter_isHeading_globalsTable (c : Codex) : c.globalsTable.filter isHeading = [] := by
  have hrow : ∀ x, isHeading (globalsTable.row x) = false := by
    intro x
    unfold globalsTable.row
    rw [String.append_assoc, String.append_assoc, String.append_assoc]
    exact isHeading_append_of_head?_ne rfl (by decide)
  rw [globalsTable, List.filter_cons_of_neg (by decide), List.filter_cons_of_neg (by decide),
    List.filter_eq_nil_iff, List.forall_mem_map]
  simp [hrow]

theorem filter_ne_empty_globalsTable (c : Codex) :
    c.globalsTable.filter (· ≠ "") = c.globalsTable := by
  have hrow : ∀ x, globalsTable.row x ≠ "" := by simp [globalsTable.row]
  rw [List.filter_eq_self, globalsTable, List.forall_mem_cons, List.forall_mem_cons,
    List.forall_mem_map]
  simp [hrow]

theorem outline_globalsPage (h : c.HasSingleLines) :
    c.globalsPage.outline = if c.globals.isEmpty then [] else ["## Globals"] := by
  cases hempty : c.globals.isEmpty with
  | true => rw [globalsPage, hempty]; rfl
  | false =>
    rw [Page.outline, lines_globalsPage h hempty, List.filter_cons_of_pos (by decide),
      List.filter_cons_of_neg (by decide), filter_isHeading_globalsTable]
    rfl

theorem outline_page (h : c.HasSingleLines) : c.page.outline = c.outline := by
  have hclasses : Page.outline (c.classes.toList.flatMap fun (name, entry) => entry.page name)
      = c.classes.toList.flatMap fun (name, entry) => entry.outline name := by
    rw [outline_flatMap]
    apply List.flatMap_congr
    rw [Table.forall_mem_toList]
    intro name entry hentry
    obtain ⟨hname, hentry⟩ := h.classes name entry hentry
    exact ApiClass.outline_page hname hentry
  have htitle : Page.outline [.heading 1 "Codex"] = ["# Codex"] := by decide
  rw [page, List.cons_append, List.cons_append, outline_cons, outline_append, outline_append,
    hclasses, outline_indexPage h, outline_globalsPage h, htitle, outline]
  simp only [List.append_assoc]

theorem lines_page (c : Codex) :
    linesOf c.toMarkdown
      =
    ["# Codex", ""] ++ c.indexPage.flatMap Element.lines
      ++ (c.classes.toList.flatMap fun (name, entry) => entry.page name).flatMap Element.lines
      ++ c.globalsPage.flatMap Element.lines ++ [""] := by
  have htitle : (Element.heading 1 "Codex").lines = ["# Codex", ""] := by decide
  rw [toMarkdown, linesOf_text, page, List.flatMap_append, List.flatMap_append, List.flatMap_cons,
    htitle]

theorem exists_lines_classPages {first : String} (hfirst : c.classes.keys.head? = some first)
    (h : IsSingleLine first) :
    ∃ rest,
      (c.classes.toList.flatMap fun (name, entry) => entry.page name).flatMap Element.lines
        =
      ("## " ++ first) :: rest := by
  rw [← Std.ExtTreeMap.map_fst_toList_eq_keys, List.head?_map, Option.map_eq_some_iff] at hfirst
  obtain ⟨⟨name, entry⟩, hhead, rfl⟩ := hfirst
  obtain ⟨classes, hclasses⟩ := List.head?_eq_some_iff.1 hhead
  obtain ⟨rest, hrest⟩ := ApiClass.exists_lines_page h entry
  rw [hclasses, List.flatMap_cons, List.flatMap_append, hrest]
  exact ⟨_, rfl⟩

theorem filter_ne_empty_map_indexItem (names : List String) :
    (names.map indexItem).filter (· ≠ "") = names.map indexItem := by
  rw [List.filter_eq_self, List.forall_mem_map]
  simp [indexItem_ne_empty]

theorem exists_index (h : c.HasSingleLines) {first : String}
    (hfirst : c.classes.keys.head? = some first) :
    ∃ items rest,
      linesOf c.toMarkdown = ["# Codex", "", "## Index"] ++ items ++ ("## " ++ first) :: rest
        ∧ items.filter isHeading = []
        ∧ items.filter (· ≠ "") = c.classes.keys.map indexItem := by
  have hempty : c.classes.isEmpty = false := by
    rw [← Std.ExtTreeMap.isEmpty_keys, List.isEmpty_eq_false_iff_exists_mem]
    exact ⟨first, List.mem_of_head? hfirst⟩
  obtain ⟨rest, hrest⟩ := exists_lines_classPages hfirst (h.of_mem_keys (List.mem_of_head? hfirst))
  -- A blank line stands behind the heading and another one behind the last item.
  refine ⟨"" :: (c.classes.keys.map indexItem ++ [""]),
    rest ++ c.globalsPage.flatMap Element.lines ++ [""], ?_, ?_, ?_⟩
  · rw [lines_page, lines_indexPage h hempty, hrest]
    simp only [List.cons_append, List.append_assoc, List.nil_append]
  · rw [List.filter_cons_of_neg (by decide), List.filter_append, filter_isHeading_map_indexItem]
    rfl
  · rw [List.filter_cons_of_neg (by decide), List.filter_append, filter_ne_empty_map_indexItem]
    exact List.append_nil _

theorem exists_globals (h : c.HasSingleLines) (hne : c.globals.isEmpty = false) :
    ∃ front table,
      linesOf c.toMarkdown = front ++ "## Globals" :: table
        ∧ table.filter isHeading = []
        ∧ table.filter (· ≠ "") = c.globalsTable := by
  obtain ⟨front, hlines⟩ :
      ∃ front, linesOf c.toMarkdown = front ++ "## Globals" :: "" :: (c.globalsTable ++ [""]) := by
    rw [lines_page, lines_globalsPage h hne, List.append_assoc]
    exact ⟨_, rfl⟩
  refine ⟨front, _, hlines, ?_, ?_⟩
  · rw [List.filter_cons_of_neg (by decide), List.filter_append, filter_isHeading_globalsTable]
    rfl
  · rw [List.filter_cons_of_neg (by decide), List.filter_append, filter_ne_empty_globalsTable]
    exact List.append_nil _

/--
The headings on the page of a codex are those of its outline, in which lines of descriptions can
look like headings as well, and the page lists all classes and all globals. No other text has a line
break in a codex that is made from texts and from the given globals.
-/
theorem isMirroredBy_toMarkdown :
    (∀ c : Codex, c.HasSingleLines → c.IsMirroredBy (linesOf c.toMarkdown))
      ∧ ∀ (document : Document) (supplement : Supplement), document.Obtainable →
        supplement = {} ∨ supplement = .board →
          (assemble document supplement).value.HasSingleLines := by
  constructor
  · intro c h
    refine ⟨?_, fun first hfirst => exists_index h hfirst, fun hne => exists_globals h hne⟩
    exact (headingsOf_text c.page).trans (outline_page h)
  · intro document supplement hdocument hsupplement
    exact hasSingleLines_assemble hdocument hsupplement

theorem isMirroredBy_toMarkdown_of_one_class :
    let text := "---@class Unit\n---# Start\n---@param x number\nfunction self.start(x)\n"
    let document := (Document.ofText {} text.toList).value
    let codex := (assemble document .board).value
    document.Obtainable ∧ codex.HasSingleLines ∧ codex.IsMirroredBy (linesOf codex.toMarkdown)
      ∧ codex.outline =
        ["# Codex", "## Index", "## Unit", "### Methods", "#### Unit.start", "# Start",
          "## Globals"] := by
  intro text document codex
  have hdocument : document.Obtainable := .ofText _ _
  have hcodex : codex.HasSingleLines :=
    isMirroredBy_toMarkdown.2 document .board hdocument (.inr rfl)
  exact ⟨hdocument, hcodex, isMirroredBy_toMarkdown.1 codex hcodex, by decide +kernel⟩

end Codex
end LuaCodex
