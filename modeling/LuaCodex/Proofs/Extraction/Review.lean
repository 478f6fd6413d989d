import Mathlib.Data.Finset.Dedup
import LuaCodex.Proofs.Extraction.Classes

/-!
This module contains the advisories of an extraction, told by the indices of the lines. The main
statement is that there is one advisory for each method whose arguments and documented parameters
differ as sets, in the order of the lines, and that asking for advisories does not affect the
classes.
-/

namespace LuaCodex
namespace Extraction

/--
The advisory that the line with an index gives rise to. A method that its block marks as deprecated
is exempt.
-/
def advisoryAt? (style : ReturnStyle) (lines : List (List Char)) (i : Nat) : Option Advisory :=
  match meaningAt? style lines i with
  | some (.declaresMethod signature) =>
    let block := blockMeanings style lines i
    let documented := (block.filterMap Meaning.param?).map (·.name)
    if block.any Meaning.isDeprecated || signature.args.toFinset = documented.toFinset then
      none
    else
      some
        { function := signature.name
          undocumented := signature.args.filter (· ∉ documented)
          undeclared := documented.filter (· ∉ signature.args) }
  | _ => none

/--
The notices that are warnings.
-/
def warnings (notices : List Notice) : List Notice :=
  notices.filter (·.level = .warn)

/--
The advisory that a line gives rise to if it is read with some pending block.
-/
def review? (options : Options) (doc : Doc) : Meaning → Option Advisory
  | .declaresMethod signature =>
    let advisory := Advisory.compare signature.name signature.args (doc.params.map (·.name))
    if options.crossCheck && !doc.isDeprecated && !advisory.isEmpty then some advisory else none
  | _ => none

theorem warnings_append (notices notices' : List Notice) :
    warnings (notices ++ notices') = warnings notices ++ warnings notices' := by
  apply List.filter_append

theorem warnings_notices (a : Advisory) : warnings a.notices = a.notices := by
  unfold warnings Advisory.notices
  split <;> split <;> simp [Notice.level]

theorem notices_of_isEmpty {a : Advisory} (h : a.isEmpty = true) : a.notices = [] := by
  simp_all [Advisory.isEmpty, Advisory.notices]

namespace State

variable {s : State} {options : Options} {line : List Char} {m : Meaning}

theorem warnings_endClass : warnings s.endClass.notices = warnings s.notices := by
  unfold endClass
  split
  · rfl
  · simp [warnings, Notice.level]

theorem review_advisories {signature : Signature} :
    (s.review options signature).advisories
      =
    s.advisories ++ (review? options s.doc (.declaresMethod signature)).toList := by
  unfold review review?
  by_cases hcheck : (options.crossCheck && !s.doc.isDeprecated) = true
  · simp only [hcheck, ↓reduceIte, Bool.true_and]
    split
    · next hempty => simp [hempty]
    · next hempty => simp [hempty]
  · simp [hcheck]

theorem warnings_review {signature : Signature} :
    warnings (s.review options signature).notices
      =
    warnings s.notices
      ++ (review? options s.doc (.declaresMethod signature)).toList.flatMap Advisory.notices := by
  unfold review review?
  by_cases hcheck : (options.crossCheck && !s.doc.isDeprecated) = true
  · simp only [hcheck, ↓reduceIte, Bool.true_and, warnings_append, warnings_notices]
    split
    · simp
    · next hempty => simp [notices_of_isEmpty (by simpa using hempty)]
  · simp [hcheck]

theorem absorb_advisories :
    (s.absorb options m).advisories = s.advisories ++ (review? options s.doc m).toList := by
  cases m with
  | inherits => simp only [absorb]; split <;> simp [review?]
  | declaresMethod signature => exact review_advisories
  | _ => simp [absorb, declare, review?]

theorem warnings_absorb :
    warnings (s.absorb options m).notices
      =
    warnings s.notices ++ (review? options s.doc m).toList.flatMap Advisory.notices := by
  cases m with
  | startsClass name => simp [absorb, warnings_endClass, review?]
  | inherits =>
    simp only [absorb]
    split
    · simp [review?]
    · simp [review?, warnings, Notice.level]
  | declaresMethod signature => exact warnings_review
  | _ => simp [absorb, declare, review?]

end State

variable {options : Options} {lines : List (List Char)} {i : Nat}

theorem isEmpty_compare_iff_toFinset {function : String} {args documented : List String} :
    (Advisory.compare function args documented).isEmpty = true
      ↔
    args.toFinset = documented.toFinset := by
  rw [Advisory.isEmpty_compare_iff, Finset.ext_iff]
  simp only [List.mem_toFinset]

theorem isDeprecated_blockDoc :
    (blockDoc options.style lines i).isDeprecated
      =
    (blockMeanings options.style lines i).any Meaning.isDeprecated := by
  unfold blockDoc Doc.ofMeanings Doc.isDeprecated
  split
  · next h => simp [h]
  · next h => simpa using h

theorem bind_review? (hcheck : options.crossCheck = true) :
    (meaningAt? options.style lines i).bind (review? options (blockDoc options.style lines i))
      =
    advisoryAt? options.style lines i := by
  unfold advisoryAt?
  cases hm : meaningAt? options.style lines i with
  | none => rfl
  | some m =>
    cases m with
    | declaresMethod signature =>
      have hparams : (blockDoc options.style lines i).params
          = (blockMeanings options.style lines i).filterMap Meaning.param? := rfl
      simp only [Option.bind_some, review?, hcheck, isDeprecated_blockDoc, hparams, Bool.true_and,
        Bool.and_eq_true, Bool.or_eq_true, Bool.not_eq_true', ← Bool.not_eq_true,
        isEmpty_compare_iff_toFinset, decide_eq_true_eq, ← not_or]
      split
      · rfl
      · next h => rw [if_pos (not_not.1 h)]
    | _ => rfl

theorem bind_review?_of_not (hcheck : options.crossCheck = false) :
    (meaningAt? options.style lines i).bind (review? options (blockDoc options.style lines i))
      =
    none := by
  rw [Option.bind_eq_none_iff]
  intro m _
  cases m <;> simp [review?, hcheck]

theorem advisories_stateAt_succ (h : i < lines.length) :
    (stateAt options lines (i + 1)).advisories
      =
    (stateAt options lines i).advisories
      ++ ((meaningAt? options.style lines i).bind
        (review? options (blockDoc options.style lines i))).toList := by
  have hready : (readyAt options lines i).advisories = (stateAt options lines i).advisories := by
    apply State.settle_advisories
  rw [← hready, ← readyAt_doc (Nat.le_of_lt h)]
  cases hm : meaningAt? options.style lines i with
  | some m => simp [stateAt_succ_of_meaningAt? hm, State.absorb_advisories]
  | none =>
    obtain ⟨doc, lastBlank, hnext⟩ := exists_stateAt_succ_of_none h hm
    simp [hnext]

theorem warnings_stateAt_succ (h : i < lines.length) :
    warnings (stateAt options lines (i + 1)).notices
      =
    warnings (stateAt options lines i).notices
      ++ ((meaningAt? options.style lines i).bind
        (review? options (blockDoc options.style lines i))).toList.flatMap Advisory.notices := by
  have hready : (readyAt options lines i).notices = (stateAt options lines i).notices := by
    apply State.settle_notices
  rw [← hready, ← readyAt_doc (Nat.le_of_lt h)]
  cases hm : meaningAt? options.style lines i with
  | some m => simp [stateAt_succ_of_meaningAt? hm, State.warnings_absorb]
  | none =>
    obtain ⟨doc, lastBlank, hnext⟩ := exists_stateAt_succ_of_none h hm
    simp [hnext]

theorem warnings_stateAt (h : i ≤ lines.length) :
    warnings (stateAt options lines i).notices
      =
    (stateAt options lines i).advisories.flatMap Advisory.notices := by
  induction i with
  | zero => rfl
  | succ i ih =>
    rw [warnings_stateAt_succ h, advisories_stateAt_succ h, ih (by omega), List.flatMap_append]

theorem advisories_stateAt (hcheck : options.crossCheck = true) (h : i ≤ lines.length) :
    (stateAt options lines i).advisories
      =
    (List.range i).filterMap (advisoryAt? options.style lines) := by
  induction i with
  | zero => rfl
  | succ i ih =>
    rw [advisories_stateAt_succ h, bind_review? hcheck, ih (by omega)]
    rw [List.range_succ, List.filterMap_append]
    cases hadvisory : advisoryAt? options.style lines i <;> simp [hadvisory]

theorem advisories_stateAt_of_not (hcheck : options.crossCheck = false) (h : i ≤ lines.length) :
    (stateAt options lines i).advisories = [] := by
  induction i with
  | zero => rfl
  | succ i ih =>
    rw [advisories_stateAt_succ h, bind_review?_of_not hcheck, ih (by omega)]
    rfl

theorem advisories_ofLines_eq (options : Options) (lines : List (List Char)) :
    (ofLines options lines).value.advisories
      =
    (stateAt options lines lines.length).advisories := by
  rw [stateAt_length]
  exact State.endClass_advisories

theorem advisories_ofLines (hcheck : options.crossCheck = true) (lines : List (List Char)) :
    (ofLines options lines).value.advisories
      =
    (List.range lines.length).filterMap (advisoryAt? options.style lines) := by
  rw [advisories_ofLines_eq]
  exact advisories_stateAt hcheck (Nat.le_refl _)

theorem advisories_ofLines_of_not (hcheck : options.crossCheck = false)
    (lines : List (List Char)) : (ofLines options lines).value.advisories = [] := by
  rw [advisories_ofLines_eq]
  exact advisories_stateAt_of_not hcheck (Nat.le_refl _)

theorem warnings_ofLines (options : Options) (lines : List (List Char)) :
    warnings (ofLines options lines).notices
      =
    (ofLines options lines).value.advisories.flatMap Advisory.notices := by
  rw [advisories_ofLines_eq, ← warnings_stateAt (Nat.le_refl _), stateAt_length]
  unfold ofLines State.finish
  rw [warnings_append, State.warnings_endClass]
  cases (State.run {} options lines).endClass.name <;> simp [warnings, Notice.level]

theorem classes_ofLines_congr {options' : Options} (hstyle : options.style = options'.style)
    (hne : lines ≠ []) :
    (ofLines options lines).value.classes = (ofLines options' lines).value.classes := by
  apply Std.ExtTreeMap.ext_getElem?
  intro name
  apply Option.ext
  intro entry
  rw [getElem?_classes_ofLines_eq_some_iff hne, getElem?_classes_ofLines_eq_some_iff hne, hstyle]

end Extraction

/--
Asking for advisories leaves the classes as they are. The advisories are the ones that the lines
give rise to, in their order, and the warnings tell what they hold.
-/
theorem Document.ofText_advisories (style : ReturnStyle) (text : List Char) :
    let lines := Text.lines text
    let checked := Document.ofText { style, crossCheck := true } text
    let unchecked := Document.ofText { style, crossCheck := false } text
    checked.value.classes = unchecked.value.classes
      ∧ unchecked.value.advisories = []
      ∧ unchecked.notices.filter (·.level = .warn) = []
      ∧ checked.value.advisories
          = (List.range lines.length).filterMap (Extraction.advisoryAt? style lines)
      ∧ checked.notices.filter (·.level = .warn)
          = checked.value.advisories.flatMap fun a =>
            (if a.undocumented = [] then [] else [.undocumented a.function a.undocumented])
              ++ (if a.undeclared = [] then [] else [.undeclared a.function a.undeclared]) := by
  have hne : Text.lines text ≠ [] := List.splitOn_ne_nil _ _
  have hunchecked := Extraction.warnings_ofLines { style, crossCheck := false } (Text.lines text)
  rw [Extraction.advisories_ofLines_of_not rfl] at hunchecked
  refine ⟨?_, ?_, hunchecked, ?_, ?_⟩
  · exact Extraction.classes_ofLines_congr rfl hne
  · exact Extraction.advisories_ofLines_of_not rfl _
  · exact Extraction.advisories_ofLines rfl _
  · exact Extraction.warnings_ofLines { style, crossCheck := true } _

end LuaCodex
