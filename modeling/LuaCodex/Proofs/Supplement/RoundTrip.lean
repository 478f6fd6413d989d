import LuaCodex.Proofs.Codex.Json
import LuaCodex.Proofs.Supplement.Written

/-!
This module contains the round trip of a codex through JSON. The main statement is that its text is
read as a supplement with the same classes and globals.
-/

namespace LuaCodex

open Json RecordFormat

theorem Param.readChecked_toJson (p : Param) : Param.format.readChecked p.toJson = .ok p := by
  simp [toJson, ofMembers, readChecked, readObject, readMembers, readMembers.go, format, Field.of]

theorem Return.readChecked_toJson (r : Return) : Return.format.readChecked r.toJson = .ok r := by
  obtain ⟨type, name, description⟩ := r
  cases name with
  | none =>
    simp [toJson, optionalMember, ofMembers, readChecked, readObject, readMembers, readMembers.go,
      format, Field.of]
  | some name =>
    simp [toJson, optionalMember, ofMembers, readChecked, readObject, readMembers, readMembers.go,
      format, Field.of]

theorem Doc.readObject_toMembers (doc : Doc) (other : Json → Except Fault Unit) :
    Doc.format.readObject other (doc.toMembers.map fun (key, value) => (.ofText key, value))
      =
    .ok doc := by
  have hparams := readList_map Param.readChecked_toJson
  have hreturns := readList_map Return.readChecked_toJson
  obtain ⟨deprecated, description, params, returns⟩ := doc
  cases deprecated with
  | none =>
    simp [toMembers, optionalMember, readObject, readMembers, readMembers.go, format, Field.of,
      hparams, hreturns]
  | some b =>
    simp [toMembers, optionalMember, readObject, readMembers, readMembers.go, format, Field.of,
      hparams, hreturns]

theorem Doc.ne_isMethodStatic (doc : Doc) : ∀ m ∈ doc.toMembers, m.1 ≠ "isMethodStatic" := by
  cases hdeprecated : doc.deprecated <;> simp [toMembers, optionalMember, hdeprecated]

theorem Method.read_toJson (m : Method) : Method.read m.toJson = .ok m := by
  have hstatic : Method.format.readObject (keep memberRoom)
      ((("isMethodStatic", Json.bool m.isStatic) :: m.doc.toMembers).map
        fun (key, value) => (.ofText key, value)) = .ok m.isStatic := by
    rw [List.map_cons]
    unfold readObject readMembers
    rw [go_field (by rfl) (by simp) (by rfl)]
    rw [go_others]
    · simp [Method.format, Field.of]
    · intro member hm
      simp [Method.format, Field.of, (m.doc.ne_isMethodStatic member hm).symm]
    · exact m.doc.fits_toMembers
  have hdoc : Doc.format.readObject (fun _ => .ok ())
      ((("isMethodStatic", Json.bool m.isStatic) :: m.doc.toMembers).map
        fun (key, value) => (.ofText key, value)) = .ok m.doc := by
    rw [List.map_cons]
    unfold readObject readMembers
    rw [go_other (by rfl) (by rfl)]
    exact m.doc.readObject_toMembers _
  simp only [toJson, ofMembers, Method.read, hstatic, ok_bind, readChecked, hdoc]
  rfl

theorem Event.read_toJson (e : Event) : Event.read e.toJson = .ok e := by
  have hempty : Event.format.readObject (keep memberRoom)
      (e.doc.toMembers.map fun (key, value) => (.ofText key, value)) = .ok () := by
    unfold readObject readMembers
    rw [go_others]
    · rfl
    · intro m hm
      rfl
    · exact e.doc.fits_toMembers
  simp only [toJson, ofMembers, Event.read, hempty, ok_bind, readChecked, Doc.readObject_toMembers]
  rfl

theorem ApiClass.read_toJson (c : ApiClass) : ApiClass.read c.name c.toJson = .ok c := by
  have hmethods : readTable (fun _ => Method.read) (c.methods.toJson Method.toJson)
      = .ok c.methods := by
    apply readTable_toJson
    intro name m _
    apply Method.read_toJson
  have hevents : readTable (fun _ => Event.read) (c.events.toJson Event.toJson)
      = .ok c.events := by
    apply readTable_toJson
    intro name e _
    apply Event.read_toJson
  obtain ⟨name, parent, methods, events⟩ := c
  cases parent with
  | none =>
    simp [ApiClass.read, toJson, optionalMember, ofMembers, RecordFormat.read, readObject,
      readMembers, readMembers.go, format, Field.of, hmethods, hevents]
  | some parent =>
    simp [ApiClass.read, toJson, optionalMember, ofMembers, RecordFormat.read, readObject,
      readMembers, readMembers.go, format, Field.of, hmethods, hevents]

theorem Global.read_toJson (g : Global) : Global.format.read g.toJson = .ok g := by
  simp [toJson, ofMembers, RecordFormat.read, readObject, readMembers, readMembers.go, format,
    Field.of]

/--
Every class stands under its own name.
-/
def Table.WellNamed (classes : Table ApiClass) : Prop :=
  ∀ (name : String) (entry : ApiClass), classes[name]? = some entry → entry.name = name

theorem Supplement.read_toJson {c : Codex} (h : c.classes.WellNamed) :
    Supplement.format.read c.toJson = .ok { classes := c.classes, globals := c.globals } := by
  have hclasses : readTable ApiClass.read (c.classes.toJson ApiClass.toJson) = .ok c.classes := by
    apply readTable_toJson
    intro name entry hentry
    have hread := entry.read_toJson
    rwa [h name entry hentry] at hread
  have hglobals : readTable (fun _ => Global.format.read) (c.globals.toJson Global.toJson)
      = .ok c.globals := by
    apply readTable_toJson
    intro name g _
    apply Global.read_toJson
  simp [Codex.toJson, ofMembers, RecordFormat.read, readObject, readMembers, readMembers.go,
    format, Field.of, hclasses, hglobals]

theorem Codex.assemble_empty (supplement : Supplement) :
    Codex.assemble {} supplement
      =
    { value := { classes := supplement.classes, globals := supplement.globals } } := by
  have hclasses : (∅ : Table ApiClass) ∪ supplement.classes = supplement.classes := by
    apply Std.ExtTreeMap.ext_getElem?
    intro name
    rw [Std.ExtTreeMap.getElem?_union]
    simp
  unfold assemble
  simp [hclasses]

/--
The text of a codex is read as the supplement with its classes and globals. Laid over an empty
document, this supplement is the codex again, and so it is written as the same text.
-/
theorem Supplement.ofJson_toJsonText (c : Codex) (h : c.classes.WellNamed) :
    let supplement : Supplement := { classes := c.classes, globals := c.globals }
    let reloaded := (Codex.assemble {} supplement).value
    Supplement.ofJson c.toJsonText = .ok supplement
      ∧
    reloaded = c ∧ reloaded.toJsonText = c.toJsonText := by
  intro supplement reloaded
  have hreloaded : reloaded = c := by
    simp only [reloaded, Codex.assemble_empty, supplement]
  refine ⟨?_, hreloaded, ?_⟩
  · have hwritten : Written c.toJson c.toJsonText.toList := by
      rw [Codex.toJsonText, String.toList_ofList]
      exact (c.plain_toJson.written 0).after rfl
    rw [ofJson_of_written hwritten, read_toJson h]
  · rw [hreloaded]

theorem Supplement.ofJson_toJsonText_of_insert :
    let doc : Doc :=
      { deprecated := some false
        description := "\\ \"quoted\"\n\x01"
        params := [{ name := "x" }]
        returns := [{ type := "number", name := some "" }, { type := "" }] }
    let entry : ApiClass :=
      { name := "a\tb"
        parent := some ""
        methods := (∅ : Table Method).insert "" { isStatic := true, doc } }
    let c : Codex :=
      { classes := (∅ : Table ApiClass).insert entry.name entry
        globals := (∅ : Table Global).insert "unit" { type := entry.name } }
    c.classes.WellNamed
      ∧ Supplement.ofJson c.toJsonText = .ok { classes := c.classes, globals := c.globals }
      ∧ (Codex.assemble {} { classes := c.classes, globals := c.globals }).value = c := by
  intro doc entry c
  have hnames : c.classes.WellNamed := by
    intro name other hother
    simp only [c, Std.ExtTreeMap.getElem?_insert, Std.ExtTreeMap.getElem?_empty] at hother
    split at hother
    · next hname =>
      rw [← Option.some.inj hother, ← Std.LawfulEqCmp.eq_of_compare hname]
    · contradiction
  obtain ⟨hread, hreloaded, -⟩ := Supplement.ofJson_toJsonText c hnames
  exact ⟨hnames, hread, hreloaded⟩

end LuaCodex
