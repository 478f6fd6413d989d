import Mathlib.Data.String.Basic
import LuaCodex.Markdown.Page
import LuaCodex.Proofs.Document.WellFormed
import LuaCodex.Proofs.Text.Lines

/-!
This module contains the lines of a page. Each element has lines of its own, whatever stands in
front of it and behind it, so that the headings of a page are those of its elements.
-/

namespace LuaCodex
namespace Markdown

open Text

/--
The lines of a text.
-/
def linesOf (s : String) : List String :=
  (lines s.toList).map String.ofList

/--
Decide whether a line is a heading.
-/
def isHeading (line : String) : Bool :=
  line.startsWith '#'

/--
The lines of a text that are headings.
-/
def headingsOf (s : String) : List String :=
  (linesOf s).filter isHeading

/--
The lines of an element.
-/
def Element.lines : Element → List String
  | heading level title =>
    linesOf (String.ofList (List.replicate level '#') ++ " " ++ title) ++ [""]
  | paragraph text => linesOf text ++ [""]
  | line text => linesOf text
  | gap => [""]

/--
The headings among the lines of a page.
-/
def Page.outline (page : Page) : List String :=
  (page.flatMap Element.lines).filter isHeading

variable {s t : String} {page page' : Page}

theorem isHeading_eq (line : String) : isHeading line = (line.toList.head? == some '#') :=
  String.startsWith_char_eq_head?

theorem linesOf_of_isSingleLine (h : IsSingleLine s) : linesOf s = [s] := by
  rw [linesOf, lines_of_notMem h, List.map_singleton, String.ofList_toList]

@[simp]
theorem linesOf_empty : linesOf "" = [""] :=
  linesOf_of_isSingleLine (by decide)

theorem linesOf_append_newline (s t : String) :
    linesOf (s ++ "\n" ++ t) = linesOf s ++ linesOf t := by
  have hbreak : (s ++ "\n" ++ t).toList = s.toList ++ '\n' :: t.toList := by simp
  rw [linesOf, hbreak, lines_append, List.map_append, linesOf, linesOf]

theorem linesOf_text_append (e : Element) (s : String) :
    linesOf (e.text ++ s) = e.lines ++ linesOf s := by
  -- Two line breaks end a line and then an empty one.
  have hbreaks : ∀ t : String, t ++ "\n\n" ++ s = t ++ "\n" ++ ("" ++ "\n" ++ s) := by
    intro t
    have hdouble : "\n\n" = "\n" ++ "\n" := rfl
    rw [hdouble, String.empty_append, ← String.append_assoc, ← String.append_assoc]
  cases e with
  | heading level title =>
    simp only [Element.text, Element.lines, hbreaks, linesOf_append_newline, linesOf_empty,
      List.append_assoc]
  | paragraph text =>
    simp only [Element.text, Element.lines, hbreaks, linesOf_append_newline, linesOf_empty,
      List.append_assoc]
  | line text => exact linesOf_append_newline text s
  | gap =>
    have hempty := linesOf_append_newline "" s
    rwa [String.empty_append, linesOf_empty] at hempty

theorem linesOf_text (page : Page) :
    linesOf page.text = page.flatMap Element.lines ++ [""] := by
  induction page with
  | nil => rfl
  | cons e page ih =>
    have htext : Page.text (e :: page) = e.text ++ Page.text page := String.join_cons
    rw [htext, linesOf_text_append, ih, List.flatMap_cons, List.append_assoc]

theorem headingsOf_text (page : Page) : headingsOf page.text = page.outline := by
  rw [headingsOf, linesOf_text, List.filter_append, Page.outline]
  exact List.append_nil _

@[simp]
theorem outline_append : Page.outline (page ++ page') = page.outline ++ page'.outline := by
  simp [Page.outline]

theorem outline_cons (e : Element) (page : Page) :
    Page.outline (e :: page) = Page.outline [e] ++ page.outline :=
  @outline_append [e] page

theorem outline_flatMap {α : Type} (l : List α) (f : α → Page) :
    Page.outline (l.flatMap f) = l.flatMap fun x => (f x).outline := by
  induction l with
  | nil => rfl
  | cons x l ih => rw [List.flatMap_cons, outline_append, ih, List.flatMap_cons]

theorem isHeading_append_of_head?_ne {c : Char} (hs : s.toList.head? = some c) (hc : c ≠ '#') :
    isHeading (s ++ t) = false := by
  rw [isHeading_eq, String.toList_append, List.head?_append, hs]
  simpa using hc

theorem headingsOf_of_isSingleLine (h : IsSingleLine s) (hs : isHeading s = false) :
    headingsOf s = [] := by
  simp [headingsOf, linesOf_of_isSingleLine h, hs]

theorem outline_heading {level : Nat} {title : String} (h : IsSingleLine title)
    (hlevel : level ≠ 0) :
    Page.outline [.heading level title]
      =
    [String.ofList (List.replicate level '#') ++ " " ++ title] := by
  obtain ⟨n, rfl⟩ := Nat.exists_eq_succ_of_ne_zero hlevel
  let line := String.ofList (List.replicate (n + 1) '#') ++ " " ++ title
  have hline : IsSingleLine line := by
    simpa [line, IsSingleLine, List.mem_replicate] using h
  have hheading : isHeading line = true := by
    simp [line, isHeading_eq, List.replicate_succ]
  rw [Page.outline, List.flatMap_singleton, Element.lines, linesOf_of_isSingleLine hline,
    List.singleton_append, List.filter_cons_of_pos hheading]
  rfl

@[simp]
theorem outline_paragraph (text : String) : Page.outline [.paragraph text] = headingsOf text := by
  simp [Page.outline, Element.lines, headingsOf, isHeading_eq]

@[simp]
theorem outline_gap : Page.outline [.gap] = [] := rfl

theorem lines_map_line {α : Type} {l : List α} {f : α → String} (h : ∀ x ∈ l, IsSingleLine (f x)) :
    (l.map fun x => Element.line (f x)).flatMap Element.lines = l.map f := by
  induction l with
  | nil => rfl
  | cons x l ih =>
    obtain ⟨hx, hl⟩ := List.forall_mem_cons.1 h
    rw [List.map_cons, List.flatMap_cons, ih hl, Element.lines, linesOf_of_isSingleLine hx,
      List.singleton_append, List.map_cons]

theorem outline_map_line {α : Type} {l : List α} {f : α → String}
    (h : ∀ x ∈ l, IsSingleLine (f x)) (hf : ∀ x ∈ l, isHeading (f x) = false) :
    Page.outline (l.map fun x => .line (f x)) = [] := by
  rw [Page.outline, lines_map_line h, List.filter_eq_nil_iff]
  simpa using hf

end Markdown
end LuaCodex
