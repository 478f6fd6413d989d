import LuaCodex.Proofs.Extraction.Description

/-!
This module contains what a single line does to the state of an extraction, field by field. A state
is settled if no declaration waits for its block to be filed. Lines can be read from the settled
form of a state, so that each declaration is filed before the next line counts.
-/

namespace LuaCodex

/--
The name and the kind of a member that a line declares.
-/
@[ext]
structure Extraction.Declaration where
  name : String
  kind : MemberKind
deriving DecidableEq

/--
The member that a line declares.
-/
def Meaning.declaration? : Meaning → Option Extraction.Declaration
  | declaresMethod signature => some ⟨signature.name, .method signature.isStatic⟩
  | declaresEvent name => some ⟨name, .event⟩
  | _ => none

theorem Doc.extend_of_declaration {doc : Doc} {m : Meaning} {declaration : Extraction.Declaration}
    (h : m.declaration? = some declaration) : doc.extend m = doc := by
  cases m with
  | declaresMethod => rfl
  | declaresEvent => rfl
  | _ => contradiction

namespace Extraction

open Text

namespace State

/--
What the pending block documents. It takes both a name and a kind.
-/
def declared (s : State) : Option Declaration := do
  return ⟨← s.name, ← s.kind⟩

/--
The pending block has a name and a kind exactly if it is closed when the next line starts.
-/
structure Consistent (s : State) : Prop where
  name : s.name.isSome = s.closing
  kind : s.kind.isSome = s.closing

/--
No declaration waits for its block to be filed.
-/
structure Settled (s : State) : Prop where
  closing : s.closing = false
  name : s.name = none
  kind : s.kind = none

/--
File the block that a declaration waits for.
-/
def settle (s : State) : State :=
  if s.closing then s.closeBlock else s

variable {s : State} {options : Options} {line : List Char} {m : Meaning}

@[simp]
theorem closeBlock_classes : s.closeBlock.classes = s.classes := rfl

@[simp]
theorem closeBlock_advisories : s.closeBlock.advisories = s.advisories := rfl

@[simp]
theorem closeBlock_notices : s.closeBlock.notices = s.notices := rfl

@[simp]
theorem closeBlock_lastBlank : s.closeBlock.lastBlank = s.lastBlank := rfl

theorem declared_eq_some_iff {declaration : Declaration} :
    s.declared = some declaration
      ↔
    s.name = some declaration.name ∧ s.kind = some declaration.kind := by
  unfold declared
  cases s.name with
  | none => simp
  | some name =>
    cases s.kind with
    | none => simp
    | some kind => simp [Declaration.ext_iff]

theorem Consistent.closing_eq (h : s.Consistent) : s.closing = s.declared.isSome := by
  unfold State.declared
  cases hname : s.name with
  | none =>
    rw [← h.name, hname]
    rfl
  | some name =>
    have hclosing : s.closing = true := by rw [← h.name, hname, Option.isSome_some]
    obtain ⟨kind, hkind⟩ : ∃ kind, s.kind = some kind := by
      rw [← Option.isSome_iff_exists, h.kind, hclosing]
    rw [hclosing, hkind]
    rfl

theorem Consistent.settled (h : s.Consistent) (hclosing : s.closing = false) : s.Settled := by
  refine ⟨hclosing, ?_, ?_⟩
  · simpa [hclosing] using h.name
  · simpa [hclosing] using h.kind

theorem Settled.consistent (h : s.Settled) : s.Consistent := by
  obtain ⟨hclosing, hname, hkind⟩ := h
  exact ⟨by simp [hclosing, hname], by simp [hclosing, hkind]⟩

theorem Settled.declared (h : s.Settled) : s.declared = none := by
  rw [State.declared, h.name]
  rfl

theorem settled_closeBlock (s : State) : s.closeBlock.Settled := ⟨rfl, rfl, rfl⟩

theorem Settled.closeBlock_eq (h : s.Settled) : s.closeBlock = { s with doc := {} } := by
  obtain ⟨hclosing, hname, hkind⟩ := h
  unfold closeBlock
  cases hcurrent : s.current with
  | none => simp [hclosing, hname, hkind]
  | some entry => simp [hclosing, hname, hkind]

theorem settled_settle (h : s.Consistent) : s.settle.Settled := by
  unfold settle
  split
  · exact settled_closeBlock s
  · next hclosing => exact h.settled (by simpa using hclosing)

@[simp]
theorem settle_classes : s.settle.classes = s.classes := by
  unfold settle
  split <;> rfl

@[simp]
theorem settle_advisories : s.settle.advisories = s.advisories := by
  unfold settle
  split <;> rfl

@[simp]
theorem settle_notices : s.settle.notices = s.notices := by
  unfold settle
  split <;> rfl

@[simp]
theorem settle_lastBlank : s.settle.lastBlank = s.lastBlank := by
  unfold settle
  split <;> rfl

@[simp]
theorem endClass_advisories : s.endClass.advisories = s.advisories := by
  unfold endClass
  split <;> rfl

@[simp]
theorem endClass_doc : s.endClass.doc = s.doc := by
  unfold endClass
  split <;> rfl

@[simp]
theorem endClass_name : s.endClass.name = s.name := by
  unfold endClass
  split <;> rfl

@[simp]
theorem endClass_kind : s.endClass.kind = s.kind := by
  unfold endClass
  split <;> rfl

@[simp]
theorem endClass_closing : s.endClass.closing = s.closing := by
  unfold endClass
  split <;> rfl

@[simp]
theorem endClass_lastBlank : s.endClass.lastBlank = s.lastBlank := by
  unfold endClass
  split <;> rfl

@[simp]
theorem review_classes {signature : Signature} :
    (s.review options signature).classes = s.classes := by
  unfold review
  split <;> rfl

@[simp]
theorem review_current {signature : Signature} :
    (s.review options signature).current = s.current := by
  unfold review
  split <;> rfl

@[simp]
theorem review_doc {signature : Signature} : (s.review options signature).doc = s.doc := by
  unfold review
  split <;> rfl

theorem absorb_doc : (s.absorb options m).doc = s.doc.extend m := by
  cases m with
  | inherits => simp only [absorb]; split <;> rfl
  | _ => simp [absorb, declare, Doc.extend]

theorem absorb_name :
    (s.absorb options m).name = (m.declaration?.map Declaration.name).or s.name := by
  cases m with
  | inherits => simp only [absorb]; split <;> rfl
  | _ => simp [absorb, declare, Meaning.declaration?]

theorem absorb_kind :
    (s.absorb options m).kind = (m.declaration?.map Declaration.kind).or s.kind := by
  cases m with
  | inherits => simp only [absorb]; split <;> rfl
  | _ => simp [absorb, declare, Meaning.declaration?]

theorem absorb_closing :
    (s.absorb options m).closing = (m.declaration?.isSome || s.closing) := by
  cases m with
  | inherits => simp only [absorb]; split <;> rfl
  | _ => simp [absorb, declare, Meaning.declaration?]

theorem step_settle : s.settle.step options line = s.step options line := by
  by_cases hclosing : s.closing = true
  · have hsettle : s.settle = s.closeBlock := by simp [settle, hclosing]
    have hclose : s.closeBlock.closeBlock = s.closeBlock := (settled_closeBlock s).closeBlock_eq
    simp [step, hsettle, hclosing, hclose]
  · simp [settle, hclosing]

@[simp]
theorem step_lastBlank : (s.step options line).lastBlank = (trim line).isEmpty := rfl

theorem Settled.step_of_meaning (h : s.Settled)
    (hm : Meaning.ofLine? options.style (trim line) = some m) :
    s.step options line = { s.absorb options m with lastBlank := false } := by
  have hline : (trim line).isEmpty = false := by
    rw [List.isEmpty_eq_false_iff]
    intro hempty
    rw [hempty, Meaning.ofLine?_nil] at hm
    contradiction
  simp [step, h.closing, hline, hm]

theorem Settled.step_of_blank (h : s.Settled) (hline : trim line = []) :
    s.step options line
      =
    { s with doc := if s.lastBlank then {} else s.doc, lastBlank := true } := by
  cases hblank : s.lastBlank with
  | false => simp [step, h.closing, hline, hblank, Meaning.ofLine?_nil]
  | true => simp [step, hline, hblank, Meaning.ofLine?_nil, h.closeBlock_eq]

theorem Settled.step_of_none (h : s.Settled) (hline : trim line ≠ [])
    (hm : Meaning.ofLine? options.style (trim line) = none) :
    s.step options line = { s with lastBlank := false } := by
  have hline : (trim line).isEmpty = false := by simpa using hline
  simp [step, h.closing, hline, hm]

theorem Settled.exists_step_of_none (h : s.Settled)
    (hm : Meaning.ofLine? options.style (trim line) = none) :
    ∃ doc lastBlank, s.step options line = { s with doc, lastBlank } := by
  by_cases hline : trim line = []
  · exact ⟨_, _, h.step_of_blank hline⟩
  · exact ⟨_, _, h.step_of_none hline hm⟩

theorem Settled.step_declared (h : s.Settled) :
    (s.step options line).declared
      =
    (Meaning.ofLine? options.style (trim line)).bind Meaning.declaration? := by
  unfold State.declared
  cases hm : Meaning.ofLine? options.style (trim line) with
  | some m =>
    simp only [h.step_of_meaning hm, absorb_name, absorb_kind, h.name, h.kind, Option.or_none,
      Option.bind_some]
    cases m.declaration? <;> rfl
  | none =>
    obtain ⟨doc, lastBlank, hstep⟩ := h.exists_step_of_none hm
    simp [hstep, h.name]

theorem Settled.consistent_step (h : s.Settled) : (s.step options line).Consistent := by
  cases hm : Meaning.ofLine? options.style (trim line) with
  | some m =>
    rw [h.step_of_meaning hm]
    constructor
    · simp [absorb_name, absorb_closing, h.name, h.closing]
    · simp [absorb_kind, absorb_closing, h.kind, h.closing]
  | none =>
    obtain ⟨doc, lastBlank, hstep⟩ := h.exists_step_of_none hm
    rw [hstep]
    exact ⟨h.consistent.name, h.consistent.kind⟩

theorem step_induction {P : State → Prop} (hclose : ∀ s, P s → P s.closeBlock)
    (habsorb : ∀ s m, Meaning.ofLine? options.style (trim line) = some m → P s →
      P (s.absorb options m))
    (hblank : ∀ s lastBlank, P s → P { s with lastBlank }) (h : P s) :
    P (s.step options line) := by
  have hopen : ∀ close : Bool, P (if close then s.closeBlock else s) := by
    intro close
    cases close with
    | false => exact h
    | true => exact hclose s h
  apply hblank
  cases hm : Meaning.ofLine? options.style (trim line) with
  | none => exact hopen _
  | some m => exact habsorb _ m hm (hopen _)

/--
What the parts of a step preserve is preserved by a run.
-/
theorem run_induction {P : State → Prop} {lines : List (List Char)}
    (hclose : ∀ s, P s → P s.closeBlock)
    (habsorb : ∀ s m, ∀ line ∈ lines, Meaning.ofLine? options.style (trim line) = some m → P s →
      P (s.absorb options m))
    (hblank : ∀ s lastBlank, P s → P { s with lastBlank }) (h : P s) :
    P (s.run options lines) := by
  induction lines generalizing s with
  | nil => exact h
  | cons line lines ih =>
    rw [run_cons]
    apply ih
    · intro s m line' hline'
      exact habsorb s m line' (List.mem_cons_of_mem _ hline')
    · apply step_induction hclose _ hblank h
      intro s m
      exact habsorb s m line List.mem_cons_self

theorem Consistent.step (h : s.Consistent) : (s.step options line).Consistent := by
  rw [← step_settle]
  exact (settled_settle h).consistent_step

theorem Consistent.run (h : s.Consistent) (lines : List (List Char)) :
    (s.run options lines).Consistent := by
  induction lines generalizing s with
  | nil => exact h
  | cons line lines ih =>
    rw [run_cons]
    exact ih h.step

end State

theorem consistent_run (options : Options) (lines : List (List Char)) :
    (State.run {} options lines).Consistent := by
  apply State.Consistent.run
  exact ⟨rfl, rfl⟩
end Extraction
end LuaCodex
