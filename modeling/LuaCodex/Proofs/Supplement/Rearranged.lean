import LuaCodex.Proofs.Json.Print
import LuaCodex.Proofs.Json.Stable
import LuaCodex.Proofs.Supplement.Written

/-!
This module contains what does not matter in the text of a supplement: the order of the members of
records and tables, and members of records that are no fields.
-/

namespace LuaCodex

open Json RecordFormat

/--
The shape of parameters.
-/
def Param.shape : Shape :=
  .record [("name", .leaf), ("type", .leaf), ("description", .leaf)]

/--
The shape of return values.
-/
def Return.shape : Shape :=
  .record [("type", .leaf), ("name", .leaf), ("description", .leaf)]

/--
The fields for the documentation of methods and events.
-/
def Doc.fieldShapes : List (String × Shape) :=
  [("deprecated", .leaf), ("description", .leaf), ("params", .list Param.shape),
    ("returns", .list Return.shape)]

/--
The shape of methods. All that is in one is kept before it is read.
-/
def Method.shape : Shape :=
  .kept (memberRoom + 1) (.record (("isMethodStatic", .leaf) :: Doc.fieldShapes))

/--
The shape of events. All that is in one is kept before it is read.
-/
def Event.shape : Shape :=
  .kept (memberRoom + 1) (.record Doc.fieldShapes)

/--
The shape of classes.
-/
def ApiClass.shape : Shape :=
  .record [("parent", .leaf), ("methods", .table Method.shape), ("events", .table Event.shape)]

/--
The shape of globals.
-/
def Global.shape : Shape :=
  .record [("type", .leaf)]

/--
The shape of supplements.
-/
def Supplement.shape : Shape :=
  .record [("classes", .table ApiClass.shape), ("globals", .table Global.shape)]

variable {limit : Option Nat}

theorem Param.hasShape : Param.format.HasShape limit
    [("name", .leaf), ("type", .leaf), ("description", .leaf)] where
  aligned := .cons ⟨rfl, stable_leaf _⟩ (.cons ⟨rfl, stable_leaf _⟩
    (.cons ⟨rfl, stable_leaf _⟩ .nil))
  distinct := by decide
  commute := by
    simp only [format, List.pairwise_cons, List.mem_cons, List.not_mem_nil, or_false,
      forall_eq_or_imp, forall_eq, false_implies, implies_true, List.Pairwise.nil, and_true]
    refine ⟨⟨?_, ?_⟩, ?_⟩ <;> exact Field.commute_of fun _ _ _ => rfl

theorem Return.hasShape : Return.format.HasShape limit
    [("type", .leaf), ("name", .leaf), ("description", .leaf)] where
  aligned := .cons ⟨rfl, stable_leaf _⟩ (.cons ⟨rfl, stable_leaf _⟩
    (.cons ⟨rfl, stable_leaf _⟩ .nil))
  distinct := by decide
  commute := by
    simp only [format, List.pairwise_cons, List.mem_cons, List.not_mem_nil, or_false,
      forall_eq_or_imp, forall_eq, false_implies, implies_true, List.Pairwise.nil, and_true]
    refine ⟨⟨?_, ?_⟩, ?_⟩ <;> exact Field.commute_of fun _ _ _ => rfl

theorem Doc.hasShape : Doc.format.HasShape limit fieldShapes where
  aligned := by
    have hparams : Stable limit (.list Param.shape) (readList Param.format.readChecked) :=
      Stable.readList Param.hasShape.stable_readChecked
    have hreturns : Stable limit (.list Return.shape) (readList Return.format.readChecked) :=
      Stable.readList Return.hasShape.stable_readChecked
    exact .cons ⟨rfl, stable_leaf _⟩ (.cons ⟨rfl, stable_leaf _⟩
      (.cons ⟨rfl, hparams.map _⟩ (.cons ⟨rfl, hreturns.map _⟩ .nil)))
  distinct := by decide
  commute := by
    simp only [format, List.pairwise_cons, List.mem_cons, List.not_mem_nil, or_false,
      forall_eq_or_imp, forall_eq, false_implies, implies_true, List.Pairwise.nil, and_true]
    refine ⟨⟨?_, ?_, ?_⟩, ⟨?_, ?_⟩, ?_⟩ <;> exact Field.commute_of fun _ _ _ => rfl

section Flattened

variable {σ α : Type} {format : RecordFormat σ} {fields : List (String × Shape)}
variable {read : Json → Reading α}

/--
A method or an event is read alike after a change. The part that is not documentation and the
documentation are read from the same members, one after the other.
-/
theorem stable_of_parts (hformat : format.ReadsFields (inside (some (memberRoom + 1))) fields)
    (hdoc : Doc.format.ReadsFields (inside (some (memberRoom + 1))) fields) (combine : σ → Doc → α)
    (hobject : ∀ members, read (.object members) = do
      let part ← format.readObject (keep memberRoom) members
      let doc ← Doc.format.readChecked (.object members)
      return combine part doc)
    (harray : ∀ items x, read (.array items) ≠ .ok x) :
    Stable none (.kept (memberRoom + 1) (.record fields)) read := by
  apply stable_kept
  refine stable_record ?_ ?_
  · intro members members' hchange x hread
    rw [hobject] at hread ⊢
    simp only [bind_eq_ok_iff] at hread ⊢
    obtain ⟨part, hpart, doc, hdocumented, hx⟩ := hread
    refine ⟨part, ?_, doc, ?_, hx⟩
    · refine readObject_of_rearranged hformat ?_ (fun h => Ignorable.keep h) hchange hpart
      exact fun _ _ hchange hv => hchange.keep rfl hv
    · exact readObject_of_rearranged hdoc (fun _ _ _ _ => rfl) (fun _ => rfl) hchange hdocumented
  · intro front back part v v' hpart hchange x hread
    exact absurd hread (harray _ x)

end Flattened

theorem Method.readsFields : Method.format.ReadsFields limit
    (("isMethodStatic", .leaf) :: Doc.fieldShapes) where
  commute := by
    simp only [format, List.mem_singleton, forall_eq, ne_eq, not_true_eq_false, false_implies]
  stable := by
    simp only [format, List.mem_singleton, forall_eq]
    exact ⟨.leaf, rfl, stable_leaf _⟩

theorem Method.stable_read : Stable none Method.shape Method.read := by
  refine stable_of_parts Method.readsFields (Doc.hasShape.readsFields.cons ?_)
    (fun isStatic doc => { isStatic, doc }) (fun _ => rfl) (fun _ _ h => by contradiction)
  simp [Doc.format, Field.of]

theorem Event.readsFields : Event.format.ReadsFields limit Doc.fieldShapes where
  commute := by simp [format]
  stable := by simp [format]

theorem Event.stable_read : Stable none Event.shape Event.read := by
  exact stable_of_parts Event.readsFields Doc.hasShape.readsFields (fun _ doc => { doc })
    (fun _ => rfl) (fun _ _ h => by contradiction)

theorem ApiClass.hasShape : ApiClass.format.HasShape none
    [("parent", .leaf), ("methods", .table Method.shape), ("events", .table Event.shape)] where
  aligned := by
    have hmethods : Stable none (.table Method.shape) (readTable fun _ => Method.read) :=
      stable_readTable fun _ => Method.stable_read
    have hevents : Stable none (.table Event.shape) (readTable fun _ => Event.read) :=
      stable_readTable fun _ => Event.stable_read
    exact .cons ⟨rfl, stable_leaf _⟩ (.cons ⟨rfl, hmethods.map _⟩ (.cons ⟨rfl, hevents.map _⟩ .nil))
  distinct := by decide
  commute := by
    simp only [format, List.pairwise_cons, List.mem_cons, List.not_mem_nil, or_false,
      forall_eq_or_imp, forall_eq, false_implies, implies_true, List.Pairwise.nil, and_true]
    refine ⟨⟨?_, ?_⟩, ?_⟩ <;> exact Field.commute_of fun _ _ _ => rfl

theorem ApiClass.stable_read (name : String) : Stable none ApiClass.shape (ApiClass.read name) := by
  have hformat : Stable none ApiClass.shape ApiClass.format.read := ApiClass.hasShape.stable_read
  exact hformat.map _

theorem Global.hasShape : Global.format.HasShape limit [("type", .leaf)] where
  aligned := .cons ⟨rfl, stable_leaf _⟩ .nil
  distinct := by decide
  commute := List.pairwise_singleton _ _

namespace Supplement

theorem hasShape : format.HasShape none
    [("classes", .table ApiClass.shape), ("globals", .table Global.shape)] where
  aligned := by
    have hclasses : Stable none (.table ApiClass.shape) (readTable ApiClass.read) :=
      stable_readTable ApiClass.stable_read
    have hglobals : Stable none (.table Global.shape) (readTable fun _ => Global.format.read) :=
      stable_readTable fun _ => Global.hasShape.stable_read
    exact .cons ⟨rfl, hclasses.map _⟩ (.cons ⟨rfl, hglobals.map _⟩ .nil)
  distinct := by decide
  commute := by
    simp only [format, List.pairwise_cons, List.mem_cons, List.not_mem_nil, or_false,
      forall_eq, false_implies, implies_true, List.Pairwise.nil, and_true]
    exact Field.commute_of fun _ _ _ => rfl

theorem stable_read : Stable none shape format.read := by
  exact hasShape.stable_read

/--
A text that is read as a supplement is a written form of some value. If the members of an object in
it are put into another order, or if a member that is no field is inserted into a record, then the
changed value has written forms, and each of them is read as the same supplement.
-/
theorem ofJson_of_rearranged (text : String) (supplement : Supplement)
    (h : ofJson text = .ok supplement) :
    (∃ v, Written v text.toList)
      ∧ ∀ v v', Written v text.toList → Rearranged none shape v v' →
        (∃ form, Written v' form)
          ∧ ∀ text' : String, Written v' text'.toList → ofJson text' = .ok supplement := by
  constructor
  · obtain ⟨v, hwritten, -⟩ := ofJson_eq_ok_iff.1 h
    exact ⟨v, hwritten⟩
  · intro v v' hwritten hchange
    constructor
    · exact hchange.writable ⟨_, hwritten⟩
    · intro text' hwritten'
      rw [ofJson_of_written hwritten] at h
      rw [ofJson_of_written hwritten']
      exact stable_read hchange h

theorem ofJson_of_rearranged_event :
    let v := fun event => Json.ofMembers
      [("classes", .ofMembers [("Unit", .ofMembers [("events", .ofMembers [("Died", event)])])])]
    let given := v (.ofMembers [("description", .ofText "Fires."), ("deprecated", .bool true)])
    let reordered := v (.ofMembers [("deprecated", .bool true), ("description", .ofText "Fires.")])
    let extended := v (.ofMembers
      [("description", .ofText "Fires."), ("isMethodStatic", .array [.null]),
        ("deprecated", .bool true)])
    let event : Event := { doc := { description := "Fires.", deprecated := some true } }
    let unit : ApiClass := { name := "Unit", events := (∅ : Table Event).insert "Died" event }
    let supplement : Supplement := { classes := (∅ : Table ApiClass).insert "Unit" unit }
    (Rearranged none shape given reordered ∧ Rearranged none shape given extended)
      ∧ ofJson (String.ofList (given.print 0)) = .ok supplement
      ∧ ofJson (String.ofList (reordered.print 0)) = .ok supplement
      ∧ ofJson (String.ofList (extended.print 0)) = .ok supplement := by
  intro v given reordered extended event unit supplement
  have hmember : ∀ {limit shape part value value'} (name : String),
      shape.member? name = some part → Rearranged (inside limit) part value value' →
      Rearranged limit shape (.ofMembers [(name, value)]) (.ofMembers [(name, value')]) := by
    intro limit shape part value value' name hpart hchange
    have hkey := Quoted.text_ofText name
    exact @Rearranged.member limit shape part [] [] _ name _ _ hkey hpart hchange
  have hevent : ∀ {event event'}, Rearranged (some (memberRoom + 1)) (.record Doc.fieldShapes)
      event event' → Rearranged none shape (v event) (v event') := by
    intro event event' hchange
    refine hmember "classes" rfl (hmember "Unit" rfl ?_)
    exact hmember "events" rfl (hmember "Died" rfl (.kept hchange))
  have hreordered : Rearranged none shape given reordered := by
    refine hevent (.order rfl ?_ (.swap _ _ _))
    simp [Quoted.text_ofText]
  have hextended : Rearranged none shape given extended := by
    refine hevent ?_
    refine @Rearranged.extra _ _ [_] [_] _ "isMethodStatic" _ ?_ ?_ ?_ ?_
    · exact Quoted.text_ofText _
    · exact ⟨_, writtenKey_print "isMethodStatic" 0⟩
    · decide
    · refine ⟨⟨_, (Plain.array [.null] ?_).written 0⟩, ?_⟩
      · simp [Plain.null]
      · rintro room hroom
        cases hroom
        exact (keep_eq_ok_iff.1 rfl).2
  have hwritten : ∀ {members}, (∀ m ∈ members, Plain m.2) →
      Written (v (.ofMembers members))
        (String.ofList ((v (.ofMembers members)).print 0)).toList := by
    intro members hmembers
    have hsingle : ∀ {value} (name : String), Plain value → Plain (.ofMembers [(name, value)]) := by
      intro value name hvalue
      exact .ofMembers _ (by simpa using hvalue)
    have hplain := hsingle "Died" (.ofMembers members hmembers)
    simpa using (hsingle "classes" (hsingle "Unit" (hsingle "events" hplain))).written 0
  have hgiven : ofJson (String.ofList (given.print 0)) = .ok supplement := by
    rw [ofJson_of_written (hwritten (by simp [Plain.ofText, Plain.bool]))]
    simp [v, unit, event, supplement, ofMembers, RecordFormat.read, RecordFormat.readChecked,
      readObject, readMembers, readMembers.go, format, Field.of, readTable, readTable.go,
      ApiClass.read, ApiClass.format, Event.read, Event.format, Doc.format, keep, readOption,
      readBool]
  refine ⟨⟨hreordered, hextended⟩, hgiven, ?_, ?_⟩
  · obtain ⟨-, h⟩ := ofJson_of_rearranged _ supplement hgiven
    refine (h given reordered (hwritten ?_) hreordered).2 _ (hwritten ?_)
    · simp [Plain.ofText, Plain.bool]
    · simp [Plain.ofText, Plain.bool]
  · obtain ⟨-, h⟩ := ofJson_of_rearranged _ supplement hgiven
    refine (h given extended (hwritten ?_) hextended).2 _ (hwritten ?_)
    · simp [Plain.ofText, Plain.bool]
    · simp [Plain.ofText, Plain.bool, Plain.array, Plain.null]

end Supplement
end LuaCodex
