import LuaCodex.Proofs.Document.Regroup
import LuaCodex.Proofs.Extraction.Classes
import LuaCodex.Proofs.Supplement.RoundTrip

/-!
This module contains the documents, supplements and codices that can be made, in any number of steps
and from any texts. The main statement is that each class in them stands under its own name.
-/

namespace LuaCodex

open Json

/--
The documents that can be extracted from texts and merged from such documents again and again.
-/
inductive Document.Obtainable : Document → Prop
  | ofText (options : Extraction.Options) (text : List Char) :
    Obtainable (Document.ofText options text).value
  | unite (docs : List (String × Document)) (h : ∀ d ∈ docs, Obtainable d.2) :
    Obtainable (Document.unite docs).value

/--
The supplements that can be read from texts and laid over each other and over the given ones.
-/
inductive Supplement.Obtainable : Supplement → Prop
  | empty : Obtainable {}
  | board : Obtainable .board
  | ofJson (text : String) (supplement : Supplement) (h : Supplement.ofJson text = .ok supplement) :
    Obtainable supplement
  | overlay (base upper : Supplement) (hbase : Obtainable base) (hupper : Obtainable upper) :
    Obtainable (base.overlay upper)

/--
The codices that can be assembled.
-/
inductive Codex.Obtainable : Codex → Prop
  | assemble (document : Document) (supplement : Supplement) (hdocument : document.Obtainable)
    (hsupplement : supplement.Obtainable) : Obtainable (Codex.assemble document supplement).value

namespace Table

theorem wellNamed_empty : WellNamed ∅ := by
  intro name entry h
  simp at h

theorem WellNamed.union {earlier later : Table ApiClass} (h : earlier.WellNamed)
    (h' : later.WellNamed) : WellNamed (earlier ∪ later) := by
  intro name entry hentry
  rw [Std.ExtTreeMap.getElem?_union, Option.or_eq_some_iff] at hentry
  rcases hentry with hlater | ⟨-, hearlier⟩
  · exact h' name entry hlater
  · exact h name entry hearlier

end Table

theorem Document.wellNamed_ofText (options : Extraction.Options) (text : List Char) :
    (ofText options text).value.classes.WellNamed := by
  intro name entry h
  -- The line that starts the section of a class names both the key and the entry.
  have hne : Text.lines text ≠ [] := List.splitOn_ne_nil _ _
  obtain ⟨start, stop, hsection, hdescribes⟩ :=
    (Extraction.getElem?_classes_ofLines_eq_some_iff hne).1 h
  have hname := hdescribes.name.symm.trans hsection.starts
  cases hname
  rfl

theorem Document.wellNamed_unite {docs : List (String × Document)}
    (h : ∀ d ∈ docs, d.2.classes.WellNamed) : (unite docs).value.classes.WellNamed := by
  intro name entry hentry
  have hunion := getElem?_unite_eq_some_iff.1 hentry
  obtain ⟨first, hfirst, hname⟩ := Option.map_eq_some_iff.1 hunion.name
  rw [← hname]
  exact name_of_mem_entriesFor h (List.mem_of_head? hfirst)

theorem ApiClass.name_of_read {name : String} {v : Json} {entry : ApiClass}
    (h : ApiClass.read name v = .ok entry) : entry.name = name := by
  obtain ⟨anonymous, -, rfl⟩ := map_eq_ok_iff.1 h
  rfl

theorem Supplement.isKept_wellNamed : format.IsKept (·.classes.WellNamed) where
  start := Table.wellNamed_empty
  set := by
    intro field hfield v set hread record hrecord
    simp only [format, List.mem_cons, List.not_mem_nil, or_false] at hfield
    rcases hfield with rfl | rfl
    · obtain ⟨classes, hclasses, rfl⟩ := map_eq_ok_iff.1 hread
      refine forall_of_readTable (P := fun name entry => entry.name = name) ?_ hclasses
      intro name v entry hread
      exact ApiClass.name_of_read hread
    · obtain ⟨globals, -, rfl⟩ := map_eq_ok_iff.1 hread
      exact hrecord

theorem Supplement.wellNamed_ofJson {text : String} {supplement : Supplement}
    (h : ofJson text = .ok supplement) : supplement.classes.WellNamed := by
  obtain ⟨read, hread, h⟩ := bind_eq_ok_iff.1 h
  split at h
  · cases h
    exact isKept_wellNamed.of_read hread
  · contradiction

theorem Document.Obtainable.wellNamed {document : Document} (h : document.Obtainable) :
    document.classes.WellNamed := by
  induction h with
  | ofText options text => exact wellNamed_ofText options text
  | unite docs _ ih => exact wellNamed_unite ih

theorem Supplement.Obtainable.wellNamed {supplement : Supplement} (h : supplement.Obtainable) :
    supplement.classes.WellNamed := by
  induction h with
  | empty => exact Table.wellNamed_empty
  | board => exact Table.wellNamed_empty
  | ofJson text supplement h => exact wellNamed_ofJson h
  | overlay base upper _ _ hbase hupper => exact hbase.union hupper

/--
In whatever can be made from texts, each class stands under its own name.
-/
theorem Codex.wellNamed_of_obtainable :
    (∀ document : Document, document.Obtainable → document.classes.WellNamed)
      ∧ (∀ supplement : Supplement, supplement.Obtainable → supplement.classes.WellNamed)
      ∧ ∀ codex : Codex, codex.Obtainable → codex.classes.WellNamed := by
  refine ⟨fun _ => Document.Obtainable.wellNamed, fun _ => Supplement.Obtainable.wellNamed, ?_⟩
  rintro _ ⟨document, supplement, hdocument, hsupplement⟩
  exact hdocument.wellNamed.union hsupplement.wellNamed

theorem Codex.wellNamed_of_obtainable_from_other_names :
    let document := (Document.ofText {} "---@class Core\n---@class Unit".toList).value
    let merged := (Document.unite [("a.lua", document), ("b.lua", document)]).value
    let remerged := (Document.unite [("merged", merged), ("c.lua", document)]).value
    let unit := Json.ofMembers [("name", .ofText "Core")]
    let unit' := Json.ofMembers [("name", .null), ("parent", .ofText "Core")]
    let v := Json.ofMembers [("classes", .ofMembers [("Unit", unit), ("Unit", unit')])]
    let given : Supplement :=
      { classes := ((∅ : Table ApiClass).insert "Unit" { name := "Unit" }).insert "Unit"
          { name := "Unit", parent := some "Core" } }
    let laid := Supplement.board.overlay given
    let codex := (Codex.assemble remerged laid).value
    Supplement.ofJson (String.ofList (v.print 0)) = .ok given
      ∧ (remerged.Obtainable ∧ remerged.classes.WellNamed)
      ∧ (laid.Obtainable ∧ laid.classes.WellNamed)
      ∧ (codex.Obtainable ∧ codex.classes.WellNamed) := by
  intro document merged remerged unit unit' v given laid codex
  have hplain : v.Plain := by
    refine .ofMembers _ ?_
    simp [unit, unit', Plain.ofMembers, Plain.ofText, Plain.null]
  have hjson : Supplement.ofJson (String.ofList (v.print 0)) = .ok given := by
    rw [Supplement.ofJson_of_written (by simpa using hplain.written 0)]
    simp [v, unit, unit', given, ofMembers, RecordFormat.read, RecordFormat.readObject,
      RecordFormat.readMembers, RecordFormat.readMembers.go, Supplement.format, Field.of, readTable,
      readTable.go, ApiClass.read, ApiClass.format, skim]
  have hmerged : ∀ d ∈ [("merged", merged), ("c.lua", document)], d.2.Obtainable := by
    have hdocument : document.Obtainable := .ofText _ _
    have hmerged : merged.Obtainable := .unite _ (by simp [hdocument])
    simp [hdocument, hmerged]
  have hremerged : remerged.Obtainable := .unite _ hmerged
  have hlaid : laid.Obtainable := .overlay _ _ .board (.ofJson _ _ hjson)
  have hcodex : codex.Obtainable := .assemble _ _ hremerged hlaid
  obtain ⟨hdocuments, hsupplements, hcodices⟩ := wellNamed_of_obtainable
  exact ⟨hjson, ⟨hremerged, hdocuments _ hremerged⟩, ⟨hlaid, hsupplements _ hlaid⟩,
    ⟨hcodex, hcodices _ hcodex⟩⟩

end LuaCodex
