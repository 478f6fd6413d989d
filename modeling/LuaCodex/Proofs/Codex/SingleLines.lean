import LuaCodex.Proofs.Codex.Naming
import LuaCodex.Proofs.Extraction.WellFormed

/-!
This module contains codices in which only descriptions have line breaks. These are in particular
the ones that are made from texts and from no supplement but the given one.
-/

namespace LuaCodex

theorem Table.forall_mem_toList {α : Type} {t : Table α} {P : String × α → Prop} :
    (∀ x ∈ t.toList, P x)
      ↔
    ∀ (name : String) (entry : α), t[name]? = some entry → P (name, entry) := by
  simp [Std.ExtTreeMap.mem_toList_iff_getElem?_eq_some]

/--
No text of a parameter has a line break.
-/
structure Param.HasSingleLines (p : Param) : Prop where
  name : IsSingleLine p.name
  type : IsSingleLine p.type
  description : IsSingleLine p.description

/--
No text of a return value has a line break.
-/
structure Return.HasSingleLines (r : Return) : Prop where
  type : IsSingleLine r.type
  name : ∀ name, r.name = some name → IsSingleLine name
  description : IsSingleLine r.description

/--
No text of a block has a line break, except for its description.
-/
structure Doc.HasSingleLines (doc : Doc) : Prop where
  params : ∀ p ∈ doc.params, p.HasSingleLines
  returns : ∀ r ∈ doc.returns, r.HasSingleLines

/--
No text of a class has a line break, except for its name and the descriptions of methods and events.
-/
structure ApiClass.HasSingleLines (entry : ApiClass) : Prop where
  parent : ∀ parent, entry.parent = some parent → IsSingleLine parent
  methods : ∀ (name : String) (method : Method), entry.methods[name]? = some method →
    IsSingleLine name ∧ method.doc.HasSingleLines
  events : ∀ (name : String) (event : Event), entry.events[name]? = some event →
    IsSingleLine name ∧ event.doc.HasSingleLines

/--
No text of a codex has a line break, except for the descriptions of methods and events.
-/
structure Codex.HasSingleLines (c : Codex) : Prop where
  classes : ∀ (name : String) (entry : ApiClass), c.classes[name]? = some entry →
    IsSingleLine name ∧ entry.HasSingleLines
  globals : ∀ (name : String) (global : Global), c.globals[name]? = some global →
    IsSingleLine name ∧ IsSingleLine global.type

theorem Param.IsWellFormed.hasSingleLines {p : Param} (h : p.IsWellFormed) : p.HasSingleLines :=
  ⟨h.name.singleLine, h.type.singleLine, h.description⟩

theorem Return.IsWellFormed.hasSingleLines {r : Return} (h : r.IsWellFormed) : r.HasSingleLines :=
  ⟨h.type.singleLine, fun name hname => (h.name name hname).singleLine, h.description⟩

theorem Doc.IsWellFormed.hasSingleLines {doc : Doc} (h : doc.IsWellFormed) : doc.HasSingleLines :=
  ⟨fun p hp => (h.params p hp).hasSingleLines, fun r hr => (h.returns r hr).hasSingleLines⟩

theorem ApiClass.IsWellFormed.hasSingleLines {entry : ApiClass} (h : entry.IsWellFormed) :
    entry.HasSingleLines := by
  refine ⟨?_, ?_, ?_⟩
  · intro parent hparent
    exact (h.parent parent hparent).singleLine
  · intro name method hmethod
    obtain ⟨hname, hdoc⟩ := h.methods name method hmethod
    exact ⟨hname.singleLine, hdoc.hasSingleLines⟩
  · intro name event hevent
    obtain ⟨hname, hdoc⟩ := h.events name event hevent
    exact ⟨hname.singleLine, hdoc.hasSingleLines⟩

theorem Document.Obtainable.isWellFormed {document : Document} (h : document.Obtainable) :
    document.IsWellFormed := by
  induction h with
  | ofText options text =>
    apply Extraction.isWellFormed_ofLines _ options (List.splitOn_ne_nil _ _)
    intro line hline
    exact Text.notMem_of_mem_lines hline
  | unite docs _ ih => exact isWellFormed_unite ih

theorem Supplement.isSingleLine_board {name : String} {global : Global}
    (h : board.globals[name]? = some global) : IsSingleLine name ∧ IsSingleLine global.type := by
  have hglobals : ∀ x ∈ board.globals.toList, IsSingleLine x.1 ∧ IsSingleLine x.2.type := by
    decide
  exact Table.forall_mem_toList.1 hglobals name global h

theorem Codex.hasSingleLines_assemble {document : Document} {supplement : Supplement}
    (hdocument : document.Obtainable) (hsupplement : supplement = {} ∨ supplement = .board) :
    (assemble document supplement).value.HasSingleLines := by
  constructor
  · intro name entry hentry
    -- Neither of the two supplements has classes.
    have hclass : document.classes[name]? = some entry := by
      rcases hsupplement with rfl | rfl <;> simpa [Supplement.board] using hentry
    obtain ⟨-, hname, hwell⟩ := hdocument.isWellFormed.classes name entry hclass
    exact ⟨hname, hwell.hasSingleLines⟩
  · intro name global hglobal
    rcases hsupplement with rfl | rfl
    · simp [assemble] at hglobal
    · exact Supplement.isSingleLine_board hglobal

end LuaCodex
