import Mathlib.Data.String.Basic
import LuaCodex.Codex.Markdown
import LuaCodex.Extraction

/-!
This module contains the links of the index to the sections of the classes. A link leads to the
first heading with its anchor, and different headings can have the same anchor. The main statement
says which links lead to the section of their own class.
-/

namespace LuaCodex
namespace Markdown

/--
The titles of the headings of a page.
-/
def Page.titles (page : Page) : List String :=
  page.filterMap fun
    | .heading _ title => some title
    | _ => none

/--
The position of the heading that a link leads to, which is the first one with this anchor.
-/
def Page.target? (page : Page) (link : String) : Option Nat :=
  page.titles.findIdx? (anchor · = link)

variable {page page' : Page}

@[simp]
theorem titles_append : Page.titles (page ++ page') = page.titles ++ page'.titles :=
  List.filterMap_append

@[simp]
theorem titles_heading (level : Nat) (title : String) :
    Page.titles (.heading level title :: page) = title :: page.titles := rfl

@[simp]
theorem titles_map_line {α : Type} (l : List α) (f : α → String) :
    Page.titles (l.map fun x => .line (f x)) = [] := by
  simp [Page.titles, List.filterMap_map]

theorem target?_eq_some_iff {link title : String} {front back : List String}
    (hpage : page.titles = front ++ title :: back) (htitle : anchor title = link) :
    page.target? link = some front.length ↔ ∀ t ∈ front, anchor t ≠ link := by
  -- The search does not go past the heading itself, so only what stands in front of it counts.
  have hback : (title :: back).findIdx? (anchor · = link) = some 0 := by
    simp [List.findIdx?_cons, htitle]
  rw [Page.target?, hpage, List.findIdx?_append, hback]
  cases hfront : front.findIdx? (anchor · = link) with
  | none => simpa using hfront
  | some i =>
    obtain ⟨hlt, hi, -⟩ := List.findIdx?_eq_some_iff_getElem.1 hfront
    constructor
    · intro heq
      simp at heq
      omega
    · intro hne
      exact absurd (by simpa using hi) (hne _ (List.getElem_mem hlt))

end Markdown

open Markdown

/--
The titles of the headings in the section of a class.
-/
def ApiClass.titles (name : String) (entry : ApiClass) : List String :=
  [name]
    ++ (if entry.methods.isEmpty then []
      else "Methods" :: entry.methods.toList.map fun (key, m) => m.qualifiedName name key)
    ++ (if entry.events.isEmpty then [] else "Events" :: entry.events.keys)

namespace Codex

/--
The titles of the headings in front of the section of a class.
-/
def titlesBefore (c : Codex) (name : String) : List String :=
  ["Codex", "Index"]
    ++ (c.classes.toList.filter (·.1 < name)).flatMap fun (earlier, entry) => entry.titles earlier

/--
The link in the index leads to the section of the class itself.
-/
def LinksToClass (c : Codex) (name : String) : Prop :=
  c.page.target? (anchor name) = some (c.titlesBefore name).length

instance (c : Codex) (name : String) : Decidable (c.LinksToClass name) :=
  inferInstanceAs (Decidable (_ = _))

end Codex

theorem titles_labelledList (label : String) (items : List String) :
    (labelledList label items).titles = [] := by
  unfold labelledList
  split
  · rfl
  · rw [titles_append, ← List.singleton_append, titles_append, titles_map_line]
    rfl

theorem Doc.titles_page (doc : Doc) : doc.page.titles = [] := by
  unfold page
  rw [titles_append, titles_append, titles_append, titles_labelledList, titles_labelledList]
  split <;> split <;> rfl

theorem titles_memberSection (title : String) (members : List (String × Doc)) :
    (memberSection title members).titles
      =
    if members = [] then [] else title :: members.map Prod.fst := by
  unfold memberSection
  split
  · rfl
  · rw [titles_heading, Page.titles, List.filterMap_flatMap, List.map_eq_flatMap]
    congr 1
    apply List.flatMap_congr
    intro member _
    exact congrArg (member.1 :: ·) member.2.titles_page

theorem ApiClass.titles_page (name : String) (entry : ApiClass) :
    (entry.page name).titles = entry.titles name := by
  have hparent : Page.titles (entry.parent.map page.parentNote).toList = [] := by
    cases entry.parent <;> rfl
  unfold page titles
  rw [List.cons_append, List.cons_append, titles_heading, titles_append, titles_append, hparent,
    titles_memberSection, titles_memberSection]
  simp [Function.comp_def]

theorem Table.exists_toList_eq {α : Type} {t : Table α} {name : String} {entry : α}
    (h : t[name]? = some entry) :
    ∃ back, t.toList = t.toList.filter (·.1 < name) ++ (name, entry) :: back := by
  obtain ⟨front, back, hlist⟩ :=
    List.append_of_mem (Std.ExtTreeMap.mem_toList_iff_getElem?_eq_some.2 h)
  have hsorted : t.toList.Pairwise fun x y => x.1 < y.1 := by
    apply Std.ExtTreeMap.ordered_keys_toList.imp
    intro x y hlt
    exact compare_lt_iff_lt.1 hlt
  rw [hlist, List.pairwise_append, List.pairwise_cons] at hsorted
  obtain ⟨-, ⟨hback, -⟩, hfront⟩ := hsorted
  -- The list is sorted, so the entries in front are exactly the ones with smaller names.
  have hfilter : t.toList.filter (·.1 < name) = front := by
    rw [hlist, List.filter_append, List.filter_cons_of_neg (by simp), List.filter_eq_self.2,
      List.filter_eq_nil_iff.2, List.append_nil]
    · intro x hx hlt
      exact lt_asymm (hback x hx) (of_decide_eq_true hlt)
    · intro x hx
      simpa using hfront x hx _ List.mem_cons_self
  exact ⟨back, by rw [hfilter, hlist]⟩

namespace Codex

variable {c : Codex} {name : String} {entry : ApiClass}

theorem titles_indexPage (h : c.classes.isEmpty = false) : c.indexPage.titles = ["Index"] := by
  rw [indexPage, h, if_neg (by decide), titles_append, titles_heading, titles_map_line]
  rfl

theorem titles_page (c : Codex) :
    c.page.titles
      =
    "Codex" :: c.indexPage.titles
      ++ c.classes.toList.flatMap (fun (name, entry) => entry.titles name)
      ++ c.globalsPage.titles := by
  have hclasses : Page.titles (c.classes.toList.flatMap fun (name, entry) => entry.page name)
      = c.classes.toList.flatMap fun (name, entry) => entry.titles name := by
    rw [Page.titles, List.filterMap_flatMap]
    apply List.flatMap_congr
    intro x _
    exact ApiClass.titles_page x.1 x.2
  rw [page, titles_append, titles_append, titles_heading, hclasses]

theorem exists_titles_page (h : c.classes[name]? = some entry) :
    ∃ back, c.page.titles = c.titlesBefore name ++ name :: back := by
  obtain ⟨classes, hclasses⟩ := Table.exists_toList_eq h
  have hne : c.classes.isEmpty = false := by
    rw [← Std.ExtTreeMap.isEmpty_toList, hclasses]
    simp
  rw [titles_page, titles_indexPage hne, hclasses, List.flatMap_append, List.flatMap_cons,
    titlesBefore]
  simp [ApiClass.titles]

theorem forall_mem_titlesBefore_iff {P : String → Prop} :
    (∀ title ∈ c.titlesBefore name, P title)
      ↔
    P "Codex" ∧ P "Index"
      ∧ ∀ (earlier : String) (entry : ApiClass), c.classes[earlier]? = some entry →
        earlier < name → ∀ title ∈ entry.titles earlier, P title := by
  rw [titlesBefore, List.cons_append, List.cons_append, List.nil_append, List.forall_mem_cons,
    List.forall_mem_cons, List.forall_mem_flatMap]
  simp +contextual [List.mem_filter]

/--
The heading of a class stands behind the title, the heading of the index and the headings of the
classes in front of it. The link in the index leads to it unless one of these has the same anchor.
-/
theorem linksToClass_iff (h : c.classes[name]? = some entry) :
    c.page.titles[(c.titlesBefore name).length]? = some name
      ∧ (c.LinksToClass name
        ↔
      anchor name ≠ "codex" ∧ anchor name ≠ "index"
        ∧ ∀ (earlier : String) (entry : ApiClass), c.classes[earlier]? = some entry →
          earlier < name → ∀ title ∈ entry.titles earlier, anchor title ≠ anchor name) := by
  obtain ⟨back, hpage⟩ := exists_titles_page h
  have htitle : anchor "Codex" = "codex" := by decide
  have hindex : anchor "Index" = "index" := by decide
  constructor
  · rw [hpage, List.getElem?_append_right le_rfl, Nat.sub_self]
    rfl
  · rw [LinksToClass, target?_eq_some_iff hpage rfl, forall_mem_titlesBefore_iff, htitle, hindex,
      ne_comm, @ne_comm _ "index"]

theorem linksToClass_iff_of_two_classes :
    let text := "---@class Core\nfunction self.exit()\n\n---@class Unit\n"
    let c := (assemble (Document.ofText {} text.toList).value {}).value
    c.classes["Unit"]? = some { name := "Unit" }
      ∧ c.page.titles[(c.titlesBefore "Unit").length]? = some "Unit"
      ∧ (c.LinksToClass "Unit"
        ↔
      anchor "Unit" ≠ "codex" ∧ anchor "Unit" ≠ "index"
        ∧ ∀ (earlier : String) (entry : ApiClass), c.classes[earlier]? = some entry →
          earlier < "Unit" → ∀ title ∈ entry.titles earlier, anchor title ≠ anchor "Unit")
      ∧ c.LinksToClass "Unit" := by
  intro text c
  have hclass : c.classes["Unit"]? = some { name := "Unit" } := by decide +kernel
  obtain ⟨hheading, hlinks⟩ := linksToClass_iff hclass
  exact ⟨hclass, hheading, hlinks, by decide +kernel⟩

theorem not_linksToClass_of_same_anchor :
    let text := "---@class Unit\n---@class unit\n"
    let c := (assemble (Document.ofText {} text.toList).value {}).value
    c.classes.keys = ["Unit", "unit"]
      ∧ c.page.titles = ["Codex", "Index", "Unit", "unit"]
      ∧ indexItem "unit" = "* [unit](#unit)" ∧ anchor "Unit" = "unit"
      ∧ c.page.target? "unit" = some 2 ∧ ¬ c.LinksToClass "unit" := by
  decide +kernel

end Codex
end LuaCodex
