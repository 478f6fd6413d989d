import Mathlib.Data.String.Basic
import LuaCodex.Codex
import LuaCodex.Proofs.Document.Unite

/-!
This module contains what is found in a codex over which several supplements have been laid. The
main statement is that a supplement takes the place of an entry as a whole, that the last supplement
counts, and that a notice is given for each class that is not the one of the documents.
-/

namespace LuaCodex

variable {layers : List Supplement} {name : String}

namespace Supplement

theorem getElem?_classes_foldl_overlay (base : Supplement) :
    (layers.foldl overlay base).classes[name]?
      =
    (layers.filterMap (·.classes[name]?)).getLast?.or base.classes[name]? := by
  apply foldl_eq_getLast?_or (f := fun s : Supplement => s.classes[name]?)
  intros
  apply getElem?_classes_overlay

theorem getElem?_globals_foldl_overlay (base : Supplement) :
    (layers.foldl overlay base).globals[name]?
      =
    (layers.filterMap (·.globals[name]?)).getLast?.or base.globals[name]? := by
  apply foldl_eq_getLast?_or (f := fun s : Supplement => s.globals[name]?)
  intros
  apply getElem?_globals_overlay

theorem mem_classes_foldl_overlay_iff {base : Supplement} :
    name ∈ (layers.foldl overlay base).classes
      ↔
    name ∈ base.classes ∨ ∃ layer ∈ layers, name ∈ layer.classes := by
  induction layers generalizing base with
  | nil => simp
  | cons layer layers ih =>
    have hoverlay : name ∈ (base.overlay layer).classes
        ↔ name ∈ base.classes ∨ name ∈ layer.classes := by
      exact Std.ExtTreeMap.mem_union_iff
    rw [List.foldl_cons, ih, hoverlay, List.exists_mem_cons_iff, or_assoc]

end Supplement

namespace Codex

/--
The names of classes for which a notice is given that an entry of a supplement has taken the place
of an extracted class.
-/
def overriddenNames (document : Document) (supplement : Supplement) : List String :=
  supplement.classes.keys.filter (· ∈ document.classes)

variable {document : Document} {supplement : Supplement}

theorem notices_assemble :
    (assemble document supplement).notices
      =
    (overriddenNames document supplement).map .overridden := rfl

theorem pairwise_overriddenNames : (overriddenNames document supplement).Pairwise (· < ·) := by
  apply List.Pairwise.filter
  apply Std.ExtTreeMap.ordered_keys.imp
  intro a b h
  exact compare_lt_iff_lt.1 h

theorem mem_overriddenNames_iff :
    name ∈ overriddenNames document supplement
      ↔
    name ∈ document.classes ∧ name ∈ supplement.classes := by
  simp [overriddenNames, Std.ExtTreeMap.mem_keys, and_comm]

/--
Supplements are laid over a base without classes, and then over merged documents. What is found
under a name is the whole entry of the last supplement that has the name. If none of them has it,
the class is the one of the documents, and the global is the one of the base. There is exactly one
notice for each class that both the documents and a supplement have, in the order of the names.
-/
theorem assemble_layers (docs : List (String × Document)) (base : Supplement)
    (layers : List Supplement) (hbase : base = {} ∨ base = .board) :
    let merged := (Document.unite docs).value
    let codex := assemble merged (layers.foldl Supplement.overlay base)
    (∀ name : String, codex.value.classes[name]? =
        (layers.filterMap (·.classes[name]?)).getLast?.or merged.classes[name]?)
      ∧ (∀ name : String, codex.value.globals[name]? =
        (layers.filterMap (·.globals[name]?)).getLast?.or base.globals[name]?)
      ∧ ∃ names : List String, codex.notices = names.map .overridden
        ∧ names.Pairwise (· < ·)
        ∧ ∀ name, name ∈ names ↔
          name ∈ merged.classes ∧ ∃ layer ∈ layers, name ∈ layer.classes := by
  intro merged codex
  have hempty : base.classes = ∅ := by
    rcases hbase with rfl | rfl <;> rfl
  refine ⟨?_, ?_, ?_⟩
  · intro name
    rw [getElem?_classes_assemble, Supplement.getElem?_classes_foldl_overlay, hempty]
    simp
  · intro name
    exact Supplement.getElem?_globals_foldl_overlay base
  · refine ⟨_, notices_assemble, pairwise_overriddenNames, ?_⟩
    intro name
    rw [mem_overriddenNames_iff, Supplement.mem_classes_foldl_overlay_iff, hempty]
    simp

theorem assemble_layers_of_two_supplements :
    let extracted : ApiClass :=
      { name := "Unit", methods := (∅ : Table Method).insert "start" { isStatic := false } }
    let given : ApiClass := { name := "Unit", parent := some "Element" }
    let docs : List (String × Document) :=
      [("a.lua", { classes := (∅ : Table ApiClass).insert "Unit" extracted }),
        ("b.lua", { classes := (∅ : Table ApiClass).insert "Core" { name := "Core" } })]
    let lower : Supplement :=
      { classes := (∅ : Table ApiClass).insert "Unit" given
        globals := (∅ : Table Global).insert "unit" { type := "Unit" } }
    let upper : Supplement := { globals := (∅ : Table Global).insert "core" { type := "Core" } }
    let codex := assemble (Document.unite docs).value ([lower, upper].foldl .overlay .board)
    codex.value.classes["Unit"]? = some given
      ∧ codex.value.classes["Core"]? = some { name := "Core" }
      ∧ codex.value.globals["unit"]? = some { type := "Unit" }
      ∧ codex.value.globals["system"]? = some { type := "System" }
      ∧ ∃ names : List String, codex.notices = names.map .overridden
        ∧ ∀ name, name ∈ names ↔ name = "Unit" := by
  intro extracted given docs lower upper codex
  obtain ⟨hclasses, hglobals, names, hnotices, -, hnames⟩ :=
    assemble_layers docs .board [lower, upper] (Or.inr rfl)
  refine ⟨?_, ?_, ?_, ?_, names, hnotices, ?_⟩
  · rw [hclasses]
    rfl
  · rw [hclasses]
    rfl
  · rw [hglobals]
    rfl
  · rw [hglobals]
    rfl
  · intro name
    have hboth : ("Unit" = name ∨ "Core" = name) ∧ "Unit" = name ↔ name = "Unit" := by
      constructor
      · rintro ⟨-, h⟩
        exact h.symm
      · rintro rfl
        exact ⟨Or.inl rfl, rfl⟩
    rw [hnames, Document.mem_unite_iff]
    simpa [docs, lower, upper] using hboth

end Codex
end LuaCodex
