import Mathlib.Data.List.Basic
import LuaCodex.Meaning.Declaration
import LuaCodex.Proofs.Text.Keyword

/-!
This module contains the parts of the lines that declare a method, an event or a parent class. The
main statement is that these are exactly the lines that are recognized, that the captures are taken
from the parts, and that a line can be divided into such parts in one way only.
-/

namespace LuaCodex

open Text

/--
The parts of a line that declares a method.
-/
@[ext]
structure MethodLine where
  before : List Char
  function : List Char
  between : List Char
  self : List Char
  mark : Char
  name : List Char
  args : List Char
  rest : List Char
  allBlank_before : AllBlank before
  isWord_function : IsWord "function".toList function
  allBlank_between : AllBlank between
  isWord_self : IsWord "self".toList self
  mark_cases : mark = '.' ∨ mark = ':'
  notMem_name : '(' ∉ name
  trim_name_ne : trim name ≠ []
  notMem_args : ')' ∉ args

namespace MethodLine

/--
The line that consists of the parts.
-/
def text (parts : MethodLine) : List Char :=
  parts.before ++ (parts.function ++ (parts.between ++ (parts.self ++
    parts.mark :: (parts.name ++ '(' :: (parts.args ++ ')' :: parts.rest)))))

/--
The declared method: its trimmed name, and the trimmed pieces between the commas that are not empty.
-/
def signature (parts : MethodLine) : Signature where
  name := String.ofList (trim parts.name)
  args := (((parts.args.splitOn ',').map trim).filter (· ≠ [])).map String.ofList
  isStatic := parts.mark = '.'

end MethodLine

/--
The parts of a line that declares an event.
-/
@[ext]
structure EventLine where
  before : List Char
  self : List Char
  name : List Char
  space : List Char
  call : List Char
  rest : List Char
  allBlank_before : AllBlank before
  isWord_self : IsWord "self.".toList self
  notMem_name : '=' ∉ name
  trim_name_ne : trim name ≠ []
  allBlank_space : AllBlank space
  isWord_call : IsWord "Event:new".toList call

namespace EventLine

/--
The line that consists of the parts.
-/
def text (parts : EventLine) : List Char :=
  parts.before ++ (parts.self ++ (parts.name ++ '=' ::
    (parts.space ++ (parts.call ++ parts.rest))))

/--
The name of the declared event.
-/
def event (parts : EventLine) : String :=
  String.ofList (trim parts.name)

end EventLine

/--
The parts of a line that names a parent class. The keyword in front can be missing.
-/
@[ext]
structure ParentLine where
  before : List Char
  keyword : List Char
  gap : List Char
  self : List Char
  space : List Char
  expr : List Char
  call : List Char
  allBlank_before : AllBlank before
  keyword_cases : keyword = [] ∧ gap = []
    ∨ IsWord "local".toList keyword ∧ AllBlank gap ∧ gap ≠ []
  isWord_self : IsWord "self".toList self
  allBlank_space : AllBlank space
  head_expr_ne : expr.head? ≠ some '='
  notMem_expr : '(' ∉ expr
  trim_expr_ne : trim expr ≠ []
  mem_call : ')' ∈ call

namespace ParentLine

/--
The line that consists of the parts.
-/
def text (parts : ParentLine) : List Char :=
  parts.before ++ (parts.keyword ++ (parts.gap ++ (parts.self ++ (parts.space ++
    '=' :: (parts.expr ++ '(' :: parts.call)))))

/--
The name of the parent class.
-/
def parent (parts : ParentLine) : String :=
  String.ofList (trim parts.expr)

end ParentLine

variable {line s rest : List Char}

theorem trimmedName?_eq_some_iff {name : String} :
    trimmedName? s = some name ↔ trim s ≠ [] ∧ String.ofList (trim s) = name := by
  unfold trimmedName?
  split
  · next h => simp [h]
  · next h => simp [h]

theorem argumentNames_eq (s : List Char) :
    argumentNames s
      =
    (((s.splitOn ',').map trim).filter (· ≠ [])).map String.ofList := by
  unfold argumentNames
  induction s.splitOn ',' with
  | nil => rfl
  | cons piece pieces ih =>
    by_cases h : trim piece = []
    · simp [trimmedName?, h, ih]
    · simp [trimmedName?, h, ih]

theorem head?_eq_some_iff {isStatic : Bool} {signature : Signature} :
    signature?.head? isStatic s = some signature
      ↔
    ∃ name args rest, s = name ++ '(' :: (args ++ ')' :: rest) ∧ '(' ∉ name ∧ ')' ∉ args
      ∧ trim name ≠ []
      ∧ ⟨String.ofList (trim name), argumentNames args, isStatic⟩ = signature := by
  simp only [signature?.head?, Option.bind_eq_bind, Option.bind_eq_some_iff, Prod.exists,
    cutAt?_eq_some_iff, trimmedName?_eq_some_iff]
  constructor
  · rintro ⟨name, _, ⟨rfl, hname⟩, args, rest, ⟨rfl, hargs⟩, _, ⟨hne, rfl⟩, h⟩
    exact ⟨name, args, rest, rfl, hname, hargs, hne, Option.some.inj h⟩
  · rintro ⟨name, args, rest, rfl, hname, hargs, hne, rfl⟩
    exact ⟨name, _, ⟨rfl, hname⟩, args, rest, ⟨rfl, hargs⟩, _, ⟨hne, rfl⟩, rfl⟩

namespace MethodLine

theorem dropKeyword?_function (parts : MethodLine) :
    dropKeyword? "function".toList (trimStart parts.text)
      =
    some (parts.between ++ (parts.self ++
      parts.mark :: (parts.name ++ '(' :: (parts.args ++ ')' :: parts.rest)))) := by
  exact parts.isWord_function.dropKeyword?_trimStart (by decide) (by decide) parts.allBlank_before _

theorem signature?_text (parts : MethodLine) : signature? parts.text = some parts.signature := by
  have hself := parts.isWord_self.dropKeyword?_trimStart (by decide) (by decide)
    parts.allBlank_between
  have hhead : signature?.head? (parts.mark = '.')
      (parts.name ++ '(' :: (parts.args ++ ')' :: parts.rest)) = some parts.signature := by
    rw [head?_eq_some_iff]
    refine ⟨_, _, _, rfl, parts.notMem_name, parts.notMem_args, parts.trim_name_ne, ?_⟩
    rw [argumentNames_eq, signature]
  simp only [signature?, dropKeyword?_function, hself, Option.bind_eq_bind, Option.bind_some]
  rcases parts.mark_cases with hmark | hmark
  · simpa [hmark] using hhead
  · simpa [hmark] using hhead

theorem exists_of_signature? {signature : Signature} (h : signature? line = some signature) :
    ∃ parts : MethodLine, parts.text = line ∧ parts.signature = signature := by
  simp only [signature?, Option.bind_eq_bind, Option.bind_eq_some_iff] at h
  obtain ⟨behind, hbehind, behind', hbehind', h⟩ := h
  rw [dropKeyword?_trimStart_eq_some_iff (by decide) (by decide)] at hbehind hbehind'
  obtain ⟨before, function, rfl, hbefore, hfunction⟩ := hbehind
  obtain ⟨between, self, rfl, hbetween, hself⟩ := hbehind'
  have hparts : ∀ mark rest, mark = '.' ∨ mark = ':' → behind' = mark :: rest →
      signature?.head? (mark = '.') rest = some signature →
      ∃ parts : MethodLine, parts.text = before ++ (function ++ (between ++ (self ++ behind')))
        ∧ parts.signature = signature := by
    rintro mark rest hmark rfl hhead
    obtain ⟨name, args, rest, rfl, hname, hargs, hne, rfl⟩ := head?_eq_some_iff.1 hhead
    refine ⟨⟨before, function, between, self, mark, name, args, rest, hbefore, hfunction, hbetween,
      hself, hmark, hname, hne, hargs⟩, rfl, ?_⟩
    rw [argumentNames_eq, MethodLine.signature]
  split at h
  · exact hparts '.' _ (Or.inl rfl) rfl h
  · exact hparts ':' _ (Or.inr rfl) rfl h
  · contradiction

theorem text_injective : Function.Injective MethodLine.text := by
  intro parts parts' h
  unfold text at h
  obtain ⟨hbefore, hfunction, h⟩ := parts.isWord_function.gap_append_inj parts'.isWord_function
    (by decide) (by decide) parts.allBlank_before parts'.allBlank_before h
  obtain ⟨hbetween, hself, h⟩ := parts.isWord_self.gap_append_inj parts'.isWord_self
    (by decide) (by decide) parts.allBlank_between parts'.allBlank_between h
  obtain ⟨hmark, h⟩ := List.cons.inj h
  obtain ⟨hname, h⟩ := append_cons_inj parts.notMem_name parts'.notMem_name h
  obtain ⟨hargs, hrest⟩ := append_cons_inj parts.notMem_args parts'.notMem_args h
  exact MethodLine.ext hbefore hfunction hbetween hself hmark hname hargs hrest

end MethodLine

namespace EventLine

theorem dropKeyword?_self (parts : EventLine) :
    dropKeyword? "self.".toList (trimStart parts.text)
      =
    some (parts.name ++ '=' :: (parts.space ++ (parts.call ++ parts.rest))) := by
  exact parts.isWord_self.dropKeyword?_trimStart (by decide) (by decide) parts.allBlank_before _

theorem event?_text (parts : EventLine) : event? parts.text = some parts.event := by
  have hname := cutAt?_append parts.notMem_name
  have hcall := parts.isWord_call.dropKeyword?_trimStart (by decide) (by decide)
    parts.allBlank_space
  simp only [event?, dropKeyword?_self, hname, hcall, Option.bind_eq_bind, Option.bind_some]
  exact trimmedName?_eq_some_iff.2 ⟨parts.trim_name_ne, rfl⟩

theorem exists_of_event? {name : String} (h : event? line = some name) :
    ∃ parts : EventLine, parts.text = line ∧ parts.event = name := by
  simp only [event?, Option.bind_eq_bind, Option.bind_eq_some_iff, Prod.exists] at h
  obtain ⟨behind, hbehind, name, value, hcut, rest, hrest, h⟩ := h
  rw [dropKeyword?_trimStart_eq_some_iff (by decide) (by decide)] at hbehind hrest
  obtain ⟨before, self, rfl, hbefore, hself⟩ := hbehind
  obtain ⟨rfl, hname⟩ := cutAt?_eq_some_iff.1 hcut
  obtain ⟨space, call, rfl, hspace, hcall⟩ := hrest
  obtain ⟨hne, rfl⟩ := trimmedName?_eq_some_iff.1 h
  exact ⟨⟨before, self, name, space, call, rest, hbefore, hself, hname, hne, hspace, hcall⟩, rfl,
    rfl⟩

theorem text_injective : Function.Injective EventLine.text := by
  intro parts parts' h
  unfold text at h
  obtain ⟨hbefore, hself, h⟩ := parts.isWord_self.gap_append_inj parts'.isWord_self
    (by decide) (by decide) parts.allBlank_before parts'.allBlank_before h
  obtain ⟨hname, h⟩ := append_cons_inj parts.notMem_name parts'.notMem_name h
  obtain ⟨hspace, hcall, hrest⟩ := parts.isWord_call.gap_append_inj parts'.isWord_call
    (by decide) (by decide) parts.allBlank_space parts'.allBlank_space h
  exact EventLine.ext hbefore hself hname hspace hcall hrest

end EventLine

theorem dropSeparateKeyword?_eq_some_iff {word : List Char} :
    dropSeparateKeyword? word s = some rest
      ↔
    ∃ front gap, s = front ++ (gap ++ rest) ∧ IsWord word front ∧ AllBlank gap ∧ gap ≠ []
      ∧ trimStart rest = rest := by
  simp only [dropSeparateKeyword?, Option.bind_eq_bind, Option.bind_eq_some_iff,
    dropKeyword?_eq_some_iff]
  constructor
  · rintro ⟨behind, ⟨front, rfl, hfront⟩, h⟩
    split at h
    · contradiction
    · next c behind =>
      split at h
      · next hc =>
        cases h
        obtain ⟨gap, hgap, hsplit⟩ := exists_allBlank_append behind
        rw [trimStart_cons_of_isBlank hc]
        refine ⟨front, c :: gap, ?_, hfront, ?_, by simp, trimStart_trimStart _⟩
        · rw [List.cons_append, ← hsplit]
        · exact List.forall_mem_cons.2 ⟨hc, hgap⟩
      · contradiction
  · rintro ⟨front, gap, rfl, hfront, hgap, hne, hrest⟩
    refine ⟨gap ++ rest, ⟨front, rfl, hfront⟩, ?_⟩
    obtain ⟨c, gap, rfl⟩ := List.exists_cons_of_ne_nil hne
    have hc : isBlank c = true := hgap c List.mem_cons_self
    simp only [List.cons_append, hc, ↓reduceIte]
    rw [← List.cons_append, trimStart_append hgap, hrest]

theorem initial?_of_dropSeparateKeyword? {word s rest : List Char} {c : Char}
    (hword : initial? word = some c) (h : dropSeparateKeyword? word s = some rest) :
    initial? s = some c := by
  simp only [dropSeparateKeyword?, Option.bind_eq_bind, Option.bind_eq_some_iff] at h
  obtain ⟨rest', hrest', -⟩ := h
  exact initial?_of_dropKeyword? hword hrest'

namespace ParentLine

/--
The part of a line from the sign on, with the space in front of it.
-/
def assignment (parts : ParentLine) : List Char :=
  parts.space ++ '=' :: (parts.expr ++ '(' :: parts.call)

theorem trimStart_self_append (parts : ParentLine) :
    trimStart (parts.self ++ parts.assignment) = parts.self ++ parts.assignment := by
  exact parts.isWord_self.trimStart_append (by decide) (by decide) _

theorem dropKeyword?_self (parts : ParentLine) :
    dropKeyword? "self".toList (parts.self ++ parts.assignment) = some parts.assignment := by
  exact dropKeyword?_eq_some_iff.2 ⟨parts.self, rfl, parts.isWord_self⟩

theorem initial?_self_append (parts : ParentLine) :
    initial? (parts.self ++ parts.assignment) = some 's' := by
  exact initial?_of_dropKeyword? rfl parts.dropKeyword?_self

theorem trimStart_text (parts : ParentLine) :
    trimStart parts.text = parts.keyword ++ (parts.gap ++ (parts.self ++ parts.assignment)) := by
  have htext : parts.text = parts.before ++ (parts.keyword ++ (parts.gap ++
      (parts.self ++ parts.assignment))) := rfl
  rw [htext, trimStart_append parts.allBlank_before]
  rcases parts.keyword_cases with ⟨hkeyword, hgap⟩ | ⟨hkeyword, -, -⟩
  · rw [hkeyword, hgap]
    exact parts.trimStart_self_append
  · exact hkeyword.trimStart_append (by decide) (by decide) _

theorem text_eq (parts : ParentLine) : parts.text = parts.before ++ trimStart parts.text := by
  rw [trimStart_text]
  rfl

theorem trimStart_assignment (parts : ParentLine) :
    trimStart parts.assignment = '=' :: (parts.expr ++ '(' :: parts.call) := by
  rw [assignment, trimStart_append parts.allBlank_space]
  exact trimStart_cons_of_not_isBlank (by decide) _

theorem initial?_trimStart_text (parts : ParentLine) :
    (parts.keyword = [] ∧ parts.gap = [] ∧ initial? (trimStart parts.text) = some 's')
      ∨ initial? (trimStart parts.text) = some 'l' := by
  rw [trimStart_text]
  rcases parts.keyword_cases with ⟨hkeyword, hgap⟩ | ⟨hkeyword, -, -⟩
  · refine Or.inl ⟨hkeyword, hgap, ?_⟩
    rw [hkeyword, hgap]
    exact parts.initial?_self_append
  · exact Or.inr (initial?_of_dropKeyword? rfl (dropKeyword?_eq_some_iff.2 ⟨_, rfl, hkeyword⟩))

theorem dropSeparateKeyword?_text (parts : ParentLine) :
    (dropSeparateKeyword? "local".toList (trimStart parts.text)).getD (trimStart parts.text)
      =
    parts.self ++ parts.assignment := by
  rw [trimStart_text]
  rcases parts.keyword_cases with ⟨hkeyword, hgap⟩ | ⟨hkeyword, hgap, hne⟩
  · rw [hkeyword, hgap, List.nil_append, List.nil_append]
    cases hlocal : dropSeparateKeyword? "local".toList (parts.self ++ parts.assignment) with
    | none => rfl
    | some behind =>
      have hinitial := parts.initial?_self_append
      rw [initial?_of_dropSeparateKeyword? rfl hlocal] at hinitial
      contradiction
  · rw [dropSeparateKeyword?_eq_some_iff.2
      ⟨parts.keyword, parts.gap, rfl, hkeyword, hgap, hne, parts.trimStart_self_append⟩]
    rfl

theorem parent?_text (parts : ParentLine) : parent? parts.text = some parts.parent := by
  have hdashes : ['-', '-'].isPrefixOf (trimStart parts.text) = false := by
    rw [Bool.eq_false_iff, ne_eq, List.isPrefixOf_iff_prefix]
    rintro ⟨rest, hrest⟩
    have hinitial := parts.initial?_trimStart_text
    rw [← hrest] at hinitial
    rcases hinitial with ⟨-, -, hinitial⟩ | hinitial
    · exact absurd (Option.some.inj hinitial) (by decide)
    · exact absurd (Option.some.inj hinitial) (by decide)
  have hname : trimmedName? parts.expr = some parts.parent :=
    trimmedName?_eq_some_iff.2 ⟨parts.trim_expr_ne, rfl⟩
  simp only [parent?, hdashes, dropSeparateKeyword?_text, dropKeyword?_self, trimStart_assignment,
    Bool.false_eq_true, ↓reduceIte, Option.bind_eq_bind, Option.bind_some]
  split
  · next heq =>
    -- The sign is not the first half of a comparison.
    have hhead := parts.head_expr_ne
    cases hexpr : parts.expr <;> simp_all
  · next heq =>
    cases heq
    simp [cutAt?_append parts.notMem_expr, parts.mem_call, hname]
  · next heq => exact absurd rfl (heq _)

theorem exists_of_parent? {parent : String} (h : parent? line = some parent) :
    ∃ parts : ParentLine, parts.text = line ∧ parts.parent = parent := by
  simp only [parent?] at h
  split at h
  · contradiction
  simp only [Option.bind_eq_bind, Option.bind_eq_some_iff] at h
  obtain ⟨rest, hrest, h⟩ := h
  split at h
  · contradiction
  · next value hcomparison hvalue =>
    obtain ⟨⟨expr, call⟩, hcut, hname⟩ := Option.bind_eq_some_iff.1 h
    obtain ⟨rfl, hexpr⟩ := cutAt?_eq_some_iff.1 hcut
    split at hname
    · next hcall =>
      obtain ⟨hne, rfl⟩ := trimmedName?_eq_some_iff.1 hname
      obtain ⟨before, hbefore, hline⟩ := exists_allBlank_append line
      obtain ⟨self, hself, hword⟩ := dropKeyword?_eq_some_iff.1 hrest
      obtain ⟨space, hspace, hsplit⟩ := exists_allBlank_append rest
      have hhead : expr.head? ≠ some '=' := by
        intro heq
        obtain ⟨t, rfl⟩ := List.head?_eq_some_iff.1 heq
        exact hcomparison _ rfl
      have hparts : ∀ keyword gap, keyword = [] ∧ gap = []
            ∨ IsWord "local".toList keyword ∧ AllBlank gap ∧ gap ≠ [] →
          trimStart line = keyword ++ (gap ++ (self ++ rest)) →
          ∃ parts : ParentLine, parts.text = line ∧ parts.parent = String.ofList (trim expr) := by
        intro keyword gap hkeyword hstart
        refine ⟨⟨before, keyword, gap, self, space, expr, call, hbefore, hkeyword, hword, hspace,
          hhead, hexpr, hne, hcall⟩, ?_, rfl⟩
        rw [hline, hstart, hsplit, hvalue, text]
      cases hlocal : dropSeparateKeyword? "local".toList (trimStart line) with
      | none =>
        rw [hlocal] at hself
        exact hparts [] [] (Or.inl ⟨rfl, rfl⟩) hself
      | some behind =>
        rw [hlocal] at hself
        obtain ⟨keyword, gap, hstart, hkeyword, hgap, hne, -⟩ :=
          dropSeparateKeyword?_eq_some_iff.1 hlocal
        refine hparts keyword gap (Or.inr ⟨hkeyword, hgap, hne⟩) ?_
        rw [hstart, ← hself, Option.getD_some]
    · contradiction
  · contradiction

theorem text_injective : Function.Injective ParentLine.text := by
  intro parts parts' h
  have hbehind : parts.self ++ parts.assignment = parts'.self ++ parts'.assignment := by
    rw [← parts.dropSeparateKeyword?_text, ← parts'.dropSeparateKeyword?_text, h]
  have hstart : parts.keyword ++ parts.gap = parts'.keyword ++ parts'.gap := by
    rw [← List.append_left_inj (parts'.self ++ parts'.assignment), List.append_assoc,
      List.append_assoc, ← trimStart_text parts', ← h, trimStart_text, hbehind]
  have hkeyword : parts.keyword = parts'.keyword ∧ parts.gap = parts'.gap := by
    rcases parts.keyword_cases with ⟨hnil, hnil'⟩ | ⟨hlocal, -, hne⟩
    · rw [hnil, hnil', eq_comm, List.append_nil, List.append_eq_nil_iff] at hstart
      rw [hnil, hnil', hstart.1, hstart.2]
      exact ⟨rfl, rfl⟩
    · rcases parts'.keyword_cases with ⟨hnil, hnil'⟩ | ⟨hlocal', -, -⟩
      · rw [hnil, hnil', List.append_nil, List.append_eq_nil_iff] at hstart
        exact absurd hstart.2 hne
      · exact hlocal.append_inj hlocal' hstart
  have hbefore : parts.before = parts'.before := by
    rw [← List.append_left_inj (trimStart parts.text), ← text_eq, h, ← text_eq]
  obtain ⟨hself, hassignment⟩ := parts.isWord_self.append_inj parts'.isWord_self hbehind
  obtain ⟨hspace, hsign⟩ := append_inj_of_allBlank parts.allBlank_space parts'.allBlank_space
    (trimStart_cons_of_not_isBlank (by decide) _) (trimStart_cons_of_not_isBlank (by decide) _)
    hassignment
  obtain ⟨hexpr, hcall⟩ := append_cons_inj parts.notMem_expr parts'.notMem_expr
    (List.cons.inj hsign).2
  exact ParentLine.ext hbefore hkeyword.1 hkeyword.2 hself hspace hexpr hcall

end ParentLine

/--
A line declares a method, an event or a parent class if and only if it can be divided into the parts
of such a line, which is possible in one way only. The captures are those of the parts.
-/
theorem declarations_eq_some_iff (line : List Char) :
    (∀ signature, signature? line = some signature
        ↔ ∃ parts : MethodLine, parts.text = line ∧ parts.signature = signature)
      ∧ (∀ name, event? line = some name
        ↔ ∃ parts : EventLine, parts.text = line ∧ parts.event = name)
      ∧ (∀ parent, parent? line = some parent
        ↔ ∃ parts : ParentLine, parts.text = line ∧ parts.parent = parent)
      ∧ Function.Injective MethodLine.text ∧ Function.Injective EventLine.text
      ∧ Function.Injective ParentLine.text := by
  refine ⟨?_, ?_, ?_, MethodLine.text_injective, EventLine.text_injective,
    ParentLine.text_injective⟩
  · intro signature
    refine ⟨MethodLine.exists_of_signature?, ?_⟩
    rintro ⟨parts, rfl, rfl⟩
    exact parts.signature?_text
  · intro name
    refine ⟨EventLine.exists_of_event?, ?_⟩
    rintro ⟨parts, rfl, rfl⟩
    exact parts.event?_text
  · intro parent
    refine ⟨ParentLine.exists_of_parent?, ?_⟩
    rintro ⟨parts, rfl, rfl⟩
    exact parts.parent?_text

end LuaCodex
