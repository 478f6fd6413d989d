import LuaCodex.Proofs.Extraction.Section

/-!
This module contains what an extraction has found after some lines of a text: for each class that
has been started, the entry that its last section describes. The main statement is that this holds
for the document that is extracted from the whole text.
-/

namespace LuaCodex
namespace Extraction

/--
The classes that there would be if the text ended.
-/
def State.table (s : State) : Table ApiClass :=
  s.endClass.classes

theorem State.getElem?_table {s : State} {name : String} :
    s.table[name]?
      =
    match s.current with
    | some entry => if entry.name = name then some entry else s.classes[name]?
    | none => s.classes[name]? := by
  unfold table endClass
  split
  · next h => simp [h]
  · next entry h => simp [h, Std.ExtTreeMap.getElem?_insert]

section

variable (style : ReturnStyle) (lines : List (List Char))

/--
No class starts between two lines.
-/
def NoStart (first behind : Nat) : Prop :=
  ∀ j, first ≤ j → j < behind → ∀ name, meaningAt? style lines j ≠ some (.startsClass name)

/--
A state holds what the first `count` lines say about classes, of which the declarations in front of
line `filed` have been filed.
-/
structure Holds (count filed : Nat) (s : State) : Prop where
  missing : ∀ name, s.table[name]? = none →
    ∀ j, j < count → meaningAt? style lines j ≠ some (.startsClass name)
  found : ∀ name entry, s.table[name]? = some entry →
    ∃ start stop, IsSection style lines count name start stop
      ∧ Describes style lines start stop filed entry
  noCurrent : s.current = none → NoStart style lines 0 count
  current : ∀ entry, s.current = some entry →
    ∃ start, start < count ∧ NoStart style lines (start + 1) count
      ∧ Describes style lines start count filed entry

end

variable {options : Options} {style : ReturnStyle} {lines : List (List Char)}

theorem noStart_self (i : Nat) : NoStart style lines i i := by
  intro j hj hj'
  omega

theorem noStart_succ {i : Nat}
    (h : ∀ name, meaningAt? style lines i ≠ some (.startsClass name)) :
    NoStart style lines i (i + 1) := by
  intro j hj hj'
  rw [show j = i by omega]
  exact h

theorem NoStart.trans {first middle behind : Nat} (h : NoStart style lines first middle)
    (h' : NoStart style lines middle behind) : NoStart style lines first behind := by
  intro j hj hj'
  by_cases hjm : j < middle
  · exact h j hj hjm
  · exact h' j (by omega) hj'

theorem holds_init : Holds style lines 0 0 {} := by
  refine ⟨?_, ?_, ?_, ?_⟩
  · intro name _ j hj
    omega
  · intro name entry h
    simp [State.getElem?_table] at h
  · intro _ j _ hj
    omega
  · intro entry h
    contradiction

theorem IsSection.extend {i i' start stop start' : Nat} {name name' : String}
    (h : IsSection style lines i name start stop) (hi : i ≤ i')
    (hstart' : meaningAt? style lines start' = some (.startsClass name')) (hlt : start' < i)
    (hname : name' ≠ name) (hnone : NoStart style lines (start' + 1) i')
    : stop < i ∧ IsSection style lines i' name start stop := by
  -- The line start' starts the current class. A section of another name has ended there.
  have hne : start ≠ start' := by
    intro heq
    have := h.starts
    rw [heq, hstart'] at this
    simp [hname] at this
  have hbefore : start < start' := by
    by_contra hle
    exact hnone start (by omega) (by have := h.start_lt; have := h.stop_le; omega) name h.starts
  have hstop : stop < i := by
    by_contra hle
    exact h.inner start' hbefore (by omega) name' hstart'
  refine ⟨hstop, h.starts, ?_, h.start_lt, by omega, h.inner, fun _ => h.stops hstop⟩
  intro j hj hj'
  by_cases hji : j < i
  · exact h.last j hj hji
  · exact hnone j (by omega) hj' name

theorem Holds.getElem?_table_of_none {i f : Nat} {s : State} (h : Holds style lines i f s)
    (hs : s.current = none) (name : String) : s.table[name]? = none := by
  by_contra hsome
  obtain ⟨entry, hentry⟩ := Option.ne_none_iff_exists'.1 hsome
  obtain ⟨start, stop, hsection, -⟩ := h.found name entry hentry
  have hlt := Nat.lt_of_lt_of_le hsection.start_lt hsection.stop_le
  exact h.noCurrent hs start (Nat.zero_le _) hlt name hsection.starts

theorem Holds.update_of_none {i i' f f' : Nat} {s s' : State} (h : Holds style lines i f s)
    (hnone : NoStart style lines i i') (hs : s.current = none) (hs' : s'.current = none)
    (hclasses : s'.classes = s.classes) : Holds style lines i' f' s' := by
  have hall : NoStart style lines 0 i' := (h.noCurrent hs).trans hnone
  have htable : ∀ name : String, s'.table[name]? = none := by
    intro name
    have hbefore := h.getElem?_table_of_none hs name
    simp_all [State.getElem?_table]
  refine ⟨?_, ?_, ?_, ?_⟩
  · intro name _ j hj
    exact hall j (Nat.zero_le _) hj name
  · intro name entry hentry
    simp [htable] at hentry
  · intro _
    exact hall
  · intro entry hentry
    simp [hs'] at hentry

theorem Holds.update_of_some {i i' f f' : Nat} {s s' : State} {entry entry' : ApiClass}
    (h : Holds style lines i f s) (hi : i ≤ i') (hf : i ≤ f + 1) (hf' : i ≤ f' + 1)
    (hnone : NoStart style lines i i') (hs : s.current = some entry)
    (hs' : s'.current = some entry') (hclasses : s'.classes = s.classes)
    (hentry : ∀ start, start < i → Describes style lines start i f entry →
      Describes style lines start i' f' entry')
    : Holds style lines i' f' s' := by
  obtain ⟨start, hlt, hafter, hdescribes⟩ := h.current entry hs
  replace hafter := hafter.trans hnone
  have hdescribes' := hentry start hlt hdescribes
  have hname : entry'.name = entry.name := hdescribes'.name_eq hdescribes
  have htable : ∀ name : String, s'.table[name]?
      = if entry.name = name then some entry' else s.table[name]? := by
    intro name
    simp only [State.getElem?_table, hs', hs, hclasses, hname]
    split <;> rfl
  have hsection : IsSection style lines i' entry.name start i' := by
    refine ⟨hdescribes.name, ?_, by omega, Nat.le_refl _, ?_, by omega⟩
    · intro j hj hj'
      exact hafter j hj hj' entry.name
    · intro j hj hj'
      exact hafter j hj hj'
  refine ⟨?_, ?_, ?_, ?_⟩
  · intro name hmissing j hj
    rw [htable] at hmissing
    split at hmissing
    · contradiction
    · by_cases hji : j < i
      · exact h.missing name hmissing j hji
      · exact hnone j (by omega) hj name
  · intro name found hfound
    rw [htable] at hfound
    split at hfound
    · next heq =>
      cases hfound
      rw [← heq]
      exact ⟨start, i', hsection, hdescribes'⟩
    · next hne =>
      -- The sections of other names have ended, so that what is filed now is not theirs.
      obtain ⟨start', stop', hsection', hdescribes'⟩ := h.found name found hfound
      obtain ⟨hstop, hextend⟩ := hsection'.extend hi hdescribes.name hlt hne hafter
      exact ⟨start', stop', hextend, hdescribes'.filed_congr (by omega)⟩
  · intro hnone'
    simp [hs'] at hnone'
  · intro found hfound
    rw [hs'] at hfound
    cases hfound
    exact ⟨start, by omega, hafter, hdescribes'⟩

theorem Holds.update {i i' f f' : Nat} {s s' : State} {g : ApiClass → ApiClass}
    (h : Holds style lines i f s) (hi : i ≤ i') (hf : i ≤ f + 1) (hf' : i ≤ f' + 1)
    (hnone : NoStart style lines i i')
    (hclasses : s'.classes = s.classes) (hcurrent : s'.current = s.current.map g)
    (hg : ∀ start entry, start < i → Describes style lines start i f entry →
      Describes style lines start i' f' (g entry))
    : Holds style lines i' f' s' := by
  cases hs : s.current with
  | none =>
    rw [hs, Option.map_none] at hcurrent
    exact h.update_of_none hnone hs hcurrent hclasses
  | some entry =>
    rw [hs, Option.map_some] at hcurrent
    apply h.update_of_some hi hf hf' hnone hs hcurrent hclasses
    intro start hlt hdescribes
    exact hg start entry hlt hdescribes

theorem Holds.start {i : Nat} {s s' : State} {name : String} (h : Holds style lines i i s)
    (hm : meaningAt? style lines i = some (.startsClass name))
    (hclasses : s'.classes = s.table) (hcurrent : s'.current = some { name })
    : Holds style lines (i + 1) i s' := by
  have htable' : ∀ other : String, s'.table[other]?
      = if name = other then some { name } else s.table[other]? := by
    intro other
    simp only [State.getElem?_table (s := s'), hcurrent, hclasses]
  have hline : ∀ other, name ≠ other → meaningAt? style lines i ≠ some (.startsClass other) := by
    intro other hother
    rw [hm]
    simp [hother]
  refine ⟨?_, ?_, ?_, ?_⟩
  · intro other hmissing j hj
    rw [htable'] at hmissing
    split at hmissing
    · contradiction
    · next hne =>
      by_cases hji : j < i
      · exact h.missing other hmissing j hji
      · rw [show j = i by omega]
        exact hline other hne
  · intro other entry hfound
    rw [htable'] at hfound
    split at hfound
    · next heq =>
      cases hfound
      subst heq
      refine ⟨i, i + 1, ⟨hm, ?_, by omega, by omega, ?_, by omega⟩, describes_start hm⟩
      · intro j hj hj'
        omega
      · intro j hj hj'
        omega
    · next hne =>
      obtain ⟨start, stop, hsection, hdescribes⟩ := h.found other entry hfound
      have hstop := hsection.stop_le
      refine ⟨start, stop, ⟨hsection.starts, ?_, hsection.start_lt, by omega, hsection.inner, ?_⟩,
        hdescribes⟩
      · intro j hj hj'
        by_cases hji : j < i
        · exact hsection.last j hj hji
        · rw [show j = i by omega]
          exact hline other hne
      · intro _
        by_cases hlt : stop < i
        · exact hsection.stops hlt
        · rw [show stop = i by omega]
          exact ⟨name, hm⟩
  · intro hnone'
    rw [hcurrent] at hnone'
    contradiction
  · intro entry hentry
    rw [hcurrent] at hentry
    cases hentry
    exact ⟨i, by omega, noStart_self _, describes_start hm⟩

theorem absorb_classes_of_ne {s : State} {m : Meaning} (hm : ∀ name, m ≠ .startsClass name) :
    (s.absorb options m).classes = s.classes := by
  cases m with
  | startsClass name => exact absurd rfl (hm name)
  | inherits => simp only [State.absorb]; split <;> rfl
  | _ => simp [State.absorb, State.declare]

theorem absorb_current_of_ne {s : State} {m : Meaning} (hm : ∀ name, m ≠ .startsClass name) :
    (s.absorb options m).current
      =
    s.current.map fun entry => { entry with parent := m.parent?.or entry.parent } := by
  cases m with
  | startsClass name => exact absurd rfl (hm name)
  | inherits => cases h : s.current <;> simp [State.absorb, h, Meaning.parent?]
  | _ => simp [State.absorb, State.declare, Meaning.parent?]

theorem closeBlock_current {s : State} {declaration : Declaration}
    (h : s.declared = some declaration) :
    s.closeBlock.current
      =
    s.current.map fun entry => addMember entry s.doc declaration.name declaration.kind := by
  obtain ⟨hname, hkind⟩ := State.declared_eq_some_iff.1 h
  unfold State.closeBlock
  cases hcurrent : s.current <;> simp [hname, hkind]

theorem stateAt_succ_classes {i : Nat} (hlt : i < lines.length)
    (h : ∀ name, meaningAt? options.style lines i ≠ some (.startsClass name)) :
    (stateAt options lines (i + 1)).classes = (readyAt options lines i).classes := by
  cases hm : meaningAt? options.style lines i with
  | some m =>
    rw [stateAt_succ_of_meaningAt? hm]
    apply absorb_classes_of_ne
    intro name heq
    exact h name (by rw [hm, heq])
  | none =>
    obtain ⟨doc, lastBlank, hnext⟩ := exists_stateAt_succ_of_none hlt hm
    rw [hnext]

theorem stateAt_succ_current {i : Nat} (hlt : i < lines.length)
    (h : ∀ name, meaningAt? options.style lines i ≠ some (.startsClass name)) :
    (stateAt options lines (i + 1)).current
      =
    (readyAt options lines i).current.map fun entry =>
      { entry with parent := (parentAt? options.style lines i).or entry.parent } := by
  unfold parentAt?
  cases hm : meaningAt? options.style lines i with
  | some m =>
    rw [stateAt_succ_of_meaningAt? hm]
    apply absorb_current_of_ne
    intro name heq
    exact h name (by rw [hm, heq])
  | none =>
    obtain ⟨doc, lastBlank, hnext⟩ := exists_stateAt_succ_of_none hlt hm
    simp [hnext]

theorem holds_stateAt_succ {i : Nat} (hlt : i < lines.length)
    (h : Holds options.style lines i i (readyAt options lines i)) :
    Holds options.style lines (i + 1) i (stateAt options lines (i + 1)) := by
  by_cases hstart : ∃ name, meaningAt? options.style lines i = some (.startsClass name)
  · obtain ⟨name, hm⟩ := hstart
    apply h.start hm
    · rw [stateAt_succ_of_meaningAt? hm]
      rfl
    · rw [stateAt_succ_of_meaningAt? hm]
      rfl
  · have hnone : ∀ name, meaningAt? options.style lines i ≠ some (.startsClass name) := by
      intro name heq
      exact hstart ⟨name, heq⟩
    apply h.update (Nat.le_succ i) (Nat.le_succ i) (Nat.le_succ i) (noStart_succ hnone)
      (stateAt_succ_classes hlt hnone) (stateAt_succ_current hlt hnone)
    intro start entry hbefore hdescribes
    exact hdescribes.read hbefore

theorem exists_readyAt_succ_current {i : Nat} (hlt : i < lines.length) :
    ∃ g : ApiClass → ApiClass,
      (readyAt options lines (i + 1)).current = (stateAt options lines (i + 1)).current.map g
        ∧ ∀ entry, AddsMember options.style lines i entry (g entry) := by
  cases hd : (meaningAt? options.style lines i).bind Meaning.declaration? with
  | none =>
    refine ⟨id, ?_, fun _ => addsMember_self hd⟩
    rw [readyAt_succ_of_not_declaration hlt hd, Option.map_id_fun, id]
  | some declaration =>
    obtain ⟨m, hm, hmd⟩ := Option.bind_eq_some_iff.1 hd
    have hdeclared := (declared_stateAt_succ options hlt).trans hd
    have hdoc : (stateAt options lines (i + 1)).doc = blockDoc options.style lines i := by
      rw [stateAt_succ_of_meaningAt? hm, ← readyAt_doc (Nat.le_of_lt hlt)]
      exact State.absorb_doc.trans (Doc.extend_of_declaration hmd)
    refine ⟨_, ?_, fun _ => addsMember_addMember hd⟩
    rw [readyAt_succ_of_declaration hm hmd, closeBlock_current hdeclared, hdoc]

theorem holds_readyAt_succ {i : Nat} (hlt : i < lines.length)
    (h : Holds options.style lines (i + 1) i (stateAt options lines (i + 1))) :
    Holds options.style lines (i + 1) (i + 1) (readyAt options lines (i + 1)) := by
  obtain ⟨g, hcurrent, hadds⟩ := exists_readyAt_succ_current hlt
  apply h.update (Nat.le_refl _) (Nat.le_refl _) (Nat.le_succ _) (noStart_self _)
    State.settle_classes hcurrent
  intro start entry hbefore hdescribes
  exact hdescribes.adds (Nat.le_of_lt_succ hbefore) (hadds entry)

theorem holds_readyAt {i : Nat} (h : i ≤ lines.length) :
    Holds options.style lines i i (readyAt options lines i) := by
  induction i with
  | zero => exact holds_init
  | succ i ih => exact holds_readyAt_succ h (holds_stateAt_succ h (ih (by omega)))

theorem holds_run (options : Options) (hne : lines ≠ []) :
    Holds options.style lines lines.length (lines.length - 1) (State.run {} options lines) := by
  -- The last line is read, but what it declares is not filed any more.
  obtain ⟨n, hn⟩ := Nat.exists_eq_succ_of_ne_zero (by simpa using hne : lines.length ≠ 0)
  rw [← stateAt_length, hn]
  apply holds_stateAt_succ (by omega)
  exact holds_readyAt (by omega)

theorem classes_ofLines (options : Options) (lines : List (List Char)) :
    (ofLines options lines).value.classes = (State.run {} options lines).table := rfl

theorem mem_classes_ofLines_iff {name : String} (hne : lines ≠ []) :
    name ∈ (ofLines options lines).value.classes
      ↔
    ∃ i, meaningAt? options.style lines i = some (.startsClass name) := by
  have h := holds_run options hne
  rw [classes_ofLines, Std.ExtTreeMap.mem_iff_isSome_getElem?]
  constructor
  · intro hmem
    obtain ⟨entry, hentry⟩ := Option.isSome_iff_exists.1 hmem
    obtain ⟨start, stop, hsection, -⟩ := h.found name entry hentry
    exact ⟨start, hsection.starts⟩
  · intro ⟨i, hi⟩
    by_contra hmissing
    apply h.missing name (by simpa using hmissing) i (lt_length_of_meaningAt? hi) hi

theorem getElem?_classes_ofLines_eq_some_iff {name : String} {entry : ApiClass}
    (hne : lines ≠ []) :
    (ofLines options lines).value.classes[name]? = some entry
      ↔
    ∃ start stop, IsSection options.style lines lines.length name start stop
      ∧ Describes options.style lines start stop (lines.length - 1) entry := by
  have h := holds_run options hne
  rw [classes_ofLines]
  constructor
  · exact h.found name entry
  · intro ⟨start, stop, hsection, hdescribes⟩
    cases hfound : (State.run {} options lines).table[name]? with
    | none =>
      have hlt := lt_length_of_meaningAt? hsection.starts
      exact absurd hsection.starts (h.missing name hfound start hlt)
    | some entry' =>
      obtain ⟨start', stop', hsection', hdescribes'⟩ := h.found name entry' hfound
      obtain ⟨rfl, rfl⟩ := hsection.unique hsection'
      rw [hdescribes.unique hdescribes']

end Extraction

/--
The classes of a text are the ones that its lines start. Each of them is what its last section says,
where a declaration on the very last line does not count.
-/
theorem Document.ofText_classes (options : Extraction.Options) (text : List Char) :
    let lines := Text.lines text
    let classes := (Document.ofText options text).value.classes
    (∀ name, name ∈ classes ↔
      ∃ i, Extraction.meaningAt? options.style lines i = some (.startsClass name))
      ∧
    ∀ name entry, classes[name]? = some entry ↔
      ∃ start stop, Extraction.IsSection options.style lines lines.length name start stop
        ∧ Extraction.Describes options.style lines start stop (lines.length - 1) entry := by
  have hne : Text.lines text ≠ [] := List.splitOn_ne_nil _ _
  constructor
  · intro name
    exact Extraction.mem_classes_ofLines_iff hne
  · intro name entry
    exact Extraction.getElem?_classes_ofLines_eq_some_iff hne

end LuaCodex
