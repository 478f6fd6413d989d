import LuaCodex.Proofs.Extraction.Block

/-!
This module contains when a block is filed. What waits for this between two lines is always what the
last line has declared. The main statement is that a line files what the line in front of it
declares and nothing else, and that two blank lines only discard.
-/

namespace LuaCodex
namespace Extraction

open Text

/--
A member with its block, and the class that it is filed under.
-/
structure Filing where
  entry : ApiClass
  declaration : Declaration
  doc : Doc
deriving DecidableEq

/--
The class of a filing with its new member.
-/
def Filing.file (filing : Filing) : ApiClass :=
  addMember filing.entry filing.doc filing.declaration.name filing.declaration.kind

namespace State

/--
Decide whether a line closes the pending block when it is read.
-/
def isClosedBy (s : State) (line : List Char) : Bool :=
  s.closing || ((trim line).isEmpty && s.lastBlank)

/--
What is filed when a line is read.
-/
def filing? (s : State) (line : List Char) : Option Filing :=
  if s.isClosedBy line then
    return { entry := ← s.current, declaration := ← s.declared, doc := s.doc }
  else
    none

/--
A block has a name and a kind exactly if it is closed by the next line, which does not happen behind
a blank line.
-/
structure Coherent (s : State) : Prop extends s.Consistent where
  closing : s.lastBlank = true → s.closing = false

variable {s : State} {options : Options} {line : List Char} {filing : Filing}

theorem filing?_eq_some_iff :
    s.filing? line = some filing
      ↔
    s.isClosedBy line = true ∧ s.current = some filing.entry
      ∧ s.declared = some filing.declaration ∧ s.doc = filing.doc := by
  unfold filing?
  cases s.isClosedBy line with
  | false => simp
  | true =>
    cases hcurrent : s.current with
    | none => simp
    | some entry =>
      cases hdeclared : s.declared with
      | none => simp
      | some declaration =>
        cases filing
        simp

theorem closeBlock_of_isClosedBy (h : s.isClosedBy line = true) :
    s.closeBlock
      =
    { s with
      current := ((s.filing? line).map Filing.file).or s.current
      doc := {}
      name := none
      kind := none
      closing := false } := by
  unfold filing? closeBlock declared
  cases s.current with
  | none => simp [h]
  | some entry =>
    cases s.name with
    | none => simp [h]
    | some name =>
      cases s.kind with
      | none => simp [h]
      | some kind => simp [h, Filing.file]

theorem step_closeBlock (h : s.isClosedBy line = true) :
    s.closeBlock.step options line = s.step options line := by
  have hclose : s.closeBlock.closeBlock = s.closeBlock := (settled_closeBlock s).closeBlock_eq
  unfold isClosedBy at h
  simp [step, hclose, h]

theorem coherent_init : Coherent {} := ⟨⟨rfl, rfl⟩, fun _ => rfl⟩

theorem Settled.with_eq_self (h : s.Settled) :
    { s with name := none, kind := none, closing := false } = s := by
  rw [← h.name, ← h.kind, ← h.closing]

theorem Coherent.settled_of_lastBlank (h : s.Coherent) (hblank : s.lastBlank = true) :
    s.Settled := h.toConsistent.settled (h.closing hblank)

theorem Coherent.step (h : s.Coherent) : (s.step options line).Coherent := by
  refine ⟨h.toConsistent.step, ?_⟩
  intro hblank
  -- A blank line declares nothing, and what the line in front has declared is filed by now.
  have hline : trim line = [] := List.isEmpty_iff.1 hblank
  have hsettled := settled_settle h.toConsistent
  rw [← step_settle, hsettled.step_of_blank hline]
  exact hsettled.closing

theorem Coherent.run (h : s.Coherent) (lines : List (List Char)) :
    (s.run options lines).Coherent := by
  induction lines generalizing s with
  | nil => exact h
  | cons line lines ih => exact ih h.step

theorem Coherent.step_of_blank (h : s.Coherent) (hblank : s.lastBlank = true)
    (hline : trim line = []) : s.step options line = { s with doc := {}, lastBlank := true } := by
  rw [(h.settled_of_lastBlank hblank).step_of_blank hline, hblank]
  rfl

/--
A line is read in the state that is left by its filing.
-/
theorem Coherent.step_eq_step_filed (h : s.Coherent) :
    s.step options line
      =
    State.step
      { s with
        current := ((s.filing? line).map Filing.file).or s.current
        doc := if s.isClosedBy line then {} else s.doc
        name := none
        kind := none
        closing := false } options line := by
  cases hclosed : s.isClosedBy line with
  | true =>
    rw [if_pos rfl, ← closeBlock_of_isClosedBy hclosed, step_closeBlock hclosed]
  | false =>
    have hclosing : s.closing = false := (Bool.or_eq_false_iff.1 hclosed).1
    have hsettled := h.toConsistent.settled hclosing
    have hfiling : s.filing? line = none := by
      rw [filing?, hclosed]
      rfl
    rw [hfiling, Option.map_none, Option.none_or, if_neg Bool.false_ne_true, hsettled.with_eq_self]

theorem Coherent.filing?_of_lastBlank (h : s.Coherent) (hblank : s.lastBlank = true) :
    s.filing? line = none := by
  rw [Option.eq_none_iff_forall_ne_some]
  intro filing hfiling
  have hdeclared := (filing?_eq_some_iff.1 hfiling).2.2.1
  rw [(h.settled_of_lastBlank hblank).declared] at hdeclared
  contradiction

end State

variable {options : Options} {lines front : List (List Char)} {last : List Char} {i : Nat}

theorem coherent_run (options : Options) (lines : List (List Char)) :
    (State.run {} options lines).Coherent :=
  State.coherent_init.run lines

theorem run_concat (options : Options) (front : List (List Char)) (last : List Char) :
    State.run {} options (front ++ [last]) = (State.run {} options front).step options last := by
  rw [State.run_append, State.run_cons, State.run_nil]

theorem lastBlank_run (h : ∀ line ∈ lines.getLast?, trim line = []) :
    (State.run {} options lines).lastBlank = true := by
  rcases List.eq_nil_or_concat lines with rfl | ⟨front, last, rfl⟩
  · rfl
  · rw [List.concat_eq_append, run_concat, State.step_lastBlank, List.isEmpty_iff]
    apply h
    simp

theorem declared_run_concat (options : Options) (front : List (List Char)) (last : List Char) :
    (State.run {} options (front ++ [last])).declared
      =
    (Meaning.ofLine? options.style (trim last)).bind Meaning.declaration? := by
  have hsettled := State.settled_settle (consistent_run options front)
  rw [run_concat, ← State.step_settle, hsettled.step_declared]

theorem doc_run_concat {declaration : Declaration}
    (h : (State.run {} options (front ++ [last])).declared = some declaration) :
    (State.run {} options (front ++ [last])).doc
      =
    blockDoc options.style (front ++ [last]) front.length := by
  have hlt : front.length < (front ++ [last]).length := by simp
  have hstate : State.run {} options (front ++ [last])
      = stateAt options (front ++ [last]) (front.length + 1) := by
    rw [← stateAt_length, List.length_append, List.length_singleton]
  rw [hstate] at h ⊢
  rw [declared_stateAt_succ options hlt, Option.bind_eq_some_iff] at h
  obtain ⟨m, hm, hd⟩ := h
  rw [stateAt_succ_of_meaningAt? hm]
  change ((readyAt options (front ++ [last]) front.length).absorb options m).doc = _
  rw [State.absorb_doc, Doc.extend_of_declaration hd, readyAt_doc hlt.le]

theorem filing?_run_eq_some_iff {line : List Char} {filing : Filing} :
    (State.run {} options lines).filing? line = some filing
      ↔
    (State.run {} options lines).current = some filing.entry
      ∧ ∃ front last, lines = front ++ [last]
        ∧ (Meaning.ofLine? options.style (trim last)).bind Meaning.declaration?
            = some filing.declaration
        ∧ blockDoc options.style lines front.length = filing.doc := by
  have hcoherent := coherent_run options lines
  rw [State.filing?_eq_some_iff]
  constructor
  · rintro ⟨-, hcurrent, hdeclared, hdoc⟩
    refine ⟨hcurrent, ?_⟩
    rcases List.eq_nil_or_concat lines with rfl | ⟨front, last, rfl⟩
    · contradiction
    · rw [List.concat_eq_append] at hdeclared hdoc ⊢
      refine ⟨front, last, rfl, ?_, ?_⟩
      · rw [← declared_run_concat, hdeclared]
      · rw [← doc_run_concat hdeclared, hdoc]
  · rintro ⟨hcurrent, front, last, rfl, hm, hdoc⟩
    have hdeclared := declared_run_concat options front last
    rw [hm] at hdeclared
    have hclosing := hcoherent.toConsistent.closing_eq
    rw [hdeclared, Option.isSome_some] at hclosing
    refine ⟨?_, hcurrent, hdeclared, ?_⟩
    · rw [State.isClosedBy, hclosing, Bool.true_or]
    · rw [doc_run_concat hdeclared, hdoc]

/--
Between two lines, a block has a name if and only if it is due to be closed, and the same is true of
its kind. It has neither behind a blank line, and behind two blank lines, the missing one in front
of the text included, it is empty. Each line is read in the state that is left by its filing. A
blank line behind a blank line files nothing, it only discards the block. What a line does file is
the member that the line in front of it declares, with the block in front of this declaration, under
the class that is the current one behind it.
-/
theorem filing_of_run (options : Options) (lines : List (List Char)) :
    let s := State.run {} options lines
    s.name.isSome = s.closing ∧ s.kind.isSome = s.closing
      ∧ (s.lastBlank = true → s.closing = false ∧ s.name = none ∧ s.kind = none)
      ∧ (∀ front last, lines = front ++ [last] → trim last = [] →
        (∀ line ∈ front.getLast?, trim line = []) → s.doc = {})
      ∧ (∀ line, s.step options line = State.step
        { s with
          current := ((s.filing? line).map Filing.file).or s.current
          doc := if s.isClosedBy line then {} else s.doc
          name := none
          kind := none
          closing := false } options line)
      ∧ (∀ line, trim line = [] → s.lastBlank = true →
        s.isClosedBy line = true ∧ s.filing? line = none
          ∧ s.step options line = { s with doc := {}, lastBlank := true })
      ∧ ∀ line filing, s.filing? line = some filing
        ↔
      s.current = some filing.entry
        ∧ ∃ front last, lines = front ++ [last]
          ∧ (Meaning.ofLine? options.style (trim last)).bind Meaning.declaration?
              = some filing.declaration
          ∧ blockDoc options.style lines front.length = filing.doc := by
  intro s
  have hcoherent : s.Coherent := coherent_run options lines
  refine ⟨hcoherent.name, hcoherent.kind, ?_, ?_, ?_, ?_, ?_⟩
  · intro hblank
    have hsettled := hcoherent.settled_of_lastBlank hblank
    exact ⟨hsettled.closing, hsettled.name, hsettled.kind⟩
  · intro front last hlines hlast hfront
    have hs : s = (State.run {} options front).step options last := by
      rw [← run_concat, ← hlines]
    rw [hs, (coherent_run options front).step_of_blank (lastBlank_run hfront) hlast]
  · intro line
    exact hcoherent.step_eq_step_filed
  · intro line hline hblank
    refine ⟨?_, hcoherent.filing?_of_lastBlank hblank, hcoherent.step_of_blank hblank hline⟩
    rw [State.isClosedBy, hline, hblank]
    exact Bool.or_true _
  · intro line filing
    exact filing?_run_eq_some_iff

theorem filing_of_run_behind_two_blank_lines :
    let front := ["---@class Unit", "---@param x number", ""].map String.toList
    let lines := ["---@class Unit", "---@param x number", "", " ", "--- Start it.",
      "function self.start(x)"].map String.toList
    let gap := State.run {} {} (front ++ [" ".toList])
    let s := State.run {} {} lines
    let filing : Filing := { entry := { name := "Unit" }, declaration := ⟨"start", .method true⟩,
                             doc := { description := "Start it." } }
    (∀ line ∈ front.getLast?, trim line = []) ∧ gap.lastBlank = true
      ∧ gap.name = none ∧ gap.kind = none ∧ gap.doc = {} ∧ gap.filing? [] = none
      ∧ s.closing = true ∧ s.name = some "start" ∧ s.kind = some (.method true)
      ∧ s.filing? "end".toList = some filing
      ∧ (s.step {} "end".toList).current = some filing.file := by
  intro front lines gap s filing
  have hfront : ∀ line ∈ front.getLast?, trim line = [] := by decide
  have hblank : gap.lastBlank = true := by decide
  have hgap := filing_of_run {} (front ++ [" ".toList])
  have hstep := (filing_of_run {} lines).2.2.2.2.1 "end".toList
  have hfiling : s.filing? "end".toList = some filing := by decide
  have hunnamed := hgap.2.2.1 hblank
  refine ⟨hfront, hblank, hunnamed.2.1, hunnamed.2.2, hgap.2.2.2.1 front _ rfl (by decide) hfront,
    (hgap.2.2.2.2.2.1 [] rfl hblank).2.1, by decide, by decide, by decide, hfiling, ?_⟩
  rw [hstep]
  decide

end Extraction
end LuaCodex
