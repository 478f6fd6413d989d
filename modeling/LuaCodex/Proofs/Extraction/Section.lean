import LuaCodex.Proofs.Extraction.Block

/-!
This module contains the classes that a text declares, told by the indices of its lines. The main
statement is that a class is what its last section says, where a section is made of the lines behind
the start of a class up to the start of the next one.
-/

namespace LuaCodex

/--
The parent that a line names.
-/
def Meaning.parent? : Meaning → Option String
  | inherits parent => some parent
  | _ => none

namespace Extraction

/--
The value of `f` at the last index between two others at which it has one.
-/
def lastBetween {α : Type} (f : Nat → Option α) (start stop : Nat) : Option α :=
  ((List.Ico (start + 1) stop).filterMap f).getLast?

section

variable (style : ReturnStyle) (lines : List (List Char))

/--
The parent that the line with an index names.
-/
def parentAt? (i : Nat) : Option String :=
  (meaningAt? style lines i).bind Meaning.parent?

/--
The method of a name that the line with an index declares.
-/
def methodAt? (name : String) (i : Nat) : Option Method :=
  match meaningAt? style lines i with
  | some (.declaresMethod signature) =>
    if signature.name = name then
      some { isStatic := signature.isStatic, doc := blockDoc style lines i }
    else
      none
  | _ => none

/--
The event of a name that the line with an index declares.
-/
def eventAt? (name : String) (i : Nat) : Option Event :=
  match meaningAt? style lines i with
  | some (.declaresEvent other) =>
    if other = name then some { doc := blockDoc style lines i } else none
  | _ => none

/--
Among the first `count` lines, line `start` is the last one that starts the class of a name, and
line `stop` is the next one that starts a class. If there is no such line, `stop` is `count`.
-/
structure IsSection (count : Nat) (name : String) (start stop : Nat) : Prop where
  starts : meaningAt? style lines start = some (.startsClass name)
  last : ∀ j, start < j → j < count → meaningAt? style lines j ≠ some (.startsClass name)
  start_lt : start < stop
  stop_le : stop ≤ count
  inner : ∀ j, start < j → j < stop → ∀ other,
    meaningAt? style lines j ≠ some (.startsClass other)
  stops : stop < count → ∃ other, meaningAt? style lines stop = some (.startsClass other)

/--
A class is what the lines between `start` and `stop` say. Of several lines that name a parent or
declare members of one name, the last one counts. Only the declarations in front of line `filed`
count.
-/
structure Describes (start stop filed : Nat) (entry : ApiClass) : Prop where
  name : meaningAt? style lines start = some (.startsClass entry.name)
  parent : entry.parent = lastBetween (parentAt? style lines) start stop
  methods : ∀ name,
    entry.methods[name]? = lastBetween (methodAt? style lines name) start (min stop filed)
  events : ∀ name,
    entry.events[name]? = lastBetween (eventAt? style lines name) start (min stop filed)

/--
An entry is like another one but for the member that line `i` declares, if it declares one.
-/
structure AddsMember (i : Nat) (entry entry' : ApiClass) : Prop where
  name : entry'.name = entry.name
  parent : entry'.parent = entry.parent
  methods : ∀ name : String,
    entry'.methods[name]? = (methodAt? style lines name i).or entry.methods[name]?
  events : ∀ name : String,
    entry'.events[name]? = (eventAt? style lines name i).or entry.events[name]?

end

variable {style : ReturnStyle} {lines : List (List Char)}

theorem lastBetween_succ {α : Type} {f : Nat → Option α} {start stop : Nat} (h : start < stop) :
    lastBetween f start (stop + 1) = (f stop).or (lastBetween f start stop) := by
  unfold lastBetween
  rw [List.Ico.succ_top h, List.filterMap_append]
  cases hstop : f stop <;> simp [hstop]

theorem lastBetween_of_le {α : Type} {f : Nat → Option α} {start stop : Nat}
    (h : stop ≤ start + 1) : lastBetween f start stop = none := by
  simp [lastBetween, List.Ico.eq_nil_of_le h]

theorem lastBetween_succ_of_none {α : Type} {f : Nat → Option α} {start stop : Nat}
    (h : f stop = none) : lastBetween f start (stop + 1) = lastBetween f start stop := by
  by_cases hlt : start < stop
  · rw [lastBetween_succ hlt, h, Option.none_or]
  · rw [lastBetween_of_le (by omega), lastBetween_of_le (by omega)]

theorem IsSection.unique {count start start' stop stop' : Nat} {name : String}
    (h : IsSection style lines count name start stop)
    (h' : IsSection style lines count name start' stop') : start = start' ∧ stop = stop' := by
  have hstart : start = start' := by
    rcases Nat.lt_trichotomy start start' with hlt | heq | hgt
    · have := h.last start' hlt (Nat.lt_of_lt_of_le h'.start_lt h'.stop_le)
      exact absurd h'.starts this
    · exact heq
    · have := h'.last start hgt (Nat.lt_of_lt_of_le h.start_lt h.stop_le)
      exact absurd h.starts this
  subst hstart
  refine ⟨rfl, ?_⟩
  rcases Nat.lt_trichotomy stop stop' with hlt | heq | hgt
  · obtain ⟨other, hother⟩ := h.stops (Nat.lt_of_lt_of_le hlt h'.stop_le)
    exact absurd hother (h'.inner stop h.start_lt hlt other)
  · exact heq
  · obtain ⟨other, hother⟩ := h'.stops (Nat.lt_of_lt_of_le hgt h.stop_le)
    exact absurd hother (h.inner stop' h'.start_lt hgt other)

theorem Describes.name_eq {start stop stop' filed filed' : Nat} {entry entry' : ApiClass}
    (h : Describes style lines start stop filed entry)
    (h' : Describes style lines start stop' filed' entry') : entry.name = entry'.name := by
  have hname := h.name
  rw [h'.name] at hname
  simpa [eq_comm] using hname

theorem Describes.unique {start stop filed : Nat} {entry entry' : ApiClass}
    (h : Describes style lines start stop filed entry)
    (h' : Describes style lines start stop filed entry') : entry = entry' := by
  apply ApiClass.ext_getElem?
  · exact h.name_eq h'
  · rw [h.parent, h'.parent]
  · intro name
    rw [h.methods, h'.methods]
  · intro name
    rw [h.events, h'.events]

theorem Describes.filed_congr {start stop filed filed' : Nat} {entry : ApiClass}
    (h : Describes style lines start stop filed entry) (hmin : min stop filed = min stop filed') :
    Describes style lines start stop filed' entry := by
  refine ⟨h.name, h.parent, ?_, ?_⟩
  · rw [← hmin]
    exact h.methods
  · rw [← hmin]
    exact h.events

theorem describes_start {start filed : Nat} {name : String}
    (h : meaningAt? style lines start = some (.startsClass name)) :
    Describes style lines start (start + 1) filed { name } := by
  refine ⟨h, ?_, ?_, ?_⟩
  · rw [lastBetween_of_le (Nat.le_refl _)]
  · intro member
    rw [lastBetween_of_le (Nat.min_le_left ..)]
    exact Std.ExtTreeMap.getElem?_empty
  · intro member
    rw [lastBetween_of_le (Nat.min_le_left ..)]
    exact Std.ExtTreeMap.getElem?_empty

theorem Describes.read {start stop : Nat} {entry : ApiClass}
    (h : Describes style lines start stop stop entry) (hlt : start < stop) :
    Describes style lines start (stop + 1) stop
      { entry with parent := (parentAt? style lines stop).or entry.parent } := by
  refine ⟨h.name, ?_, ?_, ?_⟩
  · rw [lastBetween_succ hlt, h.parent]
  · intro name
    rw [Nat.min_eq_right (by omega)]
    simpa using h.methods name
  · intro name
    rw [Nat.min_eq_right (by omega)]
    simpa using h.events name

theorem methodAt?_of_not_declaration {i : Nat} {name : String}
    (h : (meaningAt? style lines i).bind Meaning.declaration? = none) :
    methodAt? style lines name i = none := by
  unfold methodAt?
  split
  · next hm => simp [hm, Meaning.declaration?] at h
  · rfl

theorem eventAt?_of_not_declaration {i : Nat} {name : String}
    (h : (meaningAt? style lines i).bind Meaning.declaration? = none) :
    eventAt? style lines name i = none := by
  unfold eventAt?
  split
  · next hm => simp [hm, Meaning.declaration?] at h
  · rfl

theorem addsMember_self {i : Nat} {entry : ApiClass}
    (h : (meaningAt? style lines i).bind Meaning.declaration? = none) :
    AddsMember style lines i entry entry := by
  refine ⟨rfl, rfl, ?_, ?_⟩
  · intro name
    rw [methodAt?_of_not_declaration h, Option.none_or]
  · intro name
    rw [eventAt?_of_not_declaration h, Option.none_or]

theorem addsMember_addMember {i : Nat} {entry : ApiClass} {declaration : Declaration}
    (hd : (meaningAt? style lines i).bind Meaning.declaration? = some declaration) :
    AddsMember style lines i entry
      (addMember entry (blockDoc style lines i) declaration.name declaration.kind) := by
  obtain ⟨m, hm, hd⟩ := Option.bind_eq_some_iff.1 hd
  cases m with
  | declaresMethod signature =>
    cases hd
    refine ⟨rfl, rfl, ?_, ?_⟩
    · intro name
      simp only [addMember, methodAt?, hm, Std.ExtTreeMap.getElem?_insert,
        Std.compare_eq_iff_eq]
      split <;> rfl
    · intro name
      simp [addMember, eventAt?, hm]
  | declaresEvent name =>
    cases hd
    refine ⟨rfl, rfl, ?_, ?_⟩
    · intro name
      simp [addMember, methodAt?, hm]
    · intro name
      simp only [addMember, eventAt?, hm, Std.ExtTreeMap.getElem?_insert,
        Std.compare_eq_iff_eq]
      split <;> rfl
  | _ => contradiction

theorem lastBetween_succ_of_le {α : Type} {f : Nat → Option α} {start stop : Nat}
    (h : start ≤ stop) (hstart : f start = none) :
    lastBetween f start (stop + 1) = (f stop).or (lastBetween f start stop) := by
  rcases Nat.lt_or_eq_of_le h with hlt | rfl
  · exact lastBetween_succ hlt
  · rw [lastBetween_succ_of_none hstart, hstart, Option.none_or]

theorem Describes.adds {start stop : Nat} {entry entry' : ApiClass}
    (h : Describes style lines start (stop + 1) stop entry) (hle : start ≤ stop)
    (hadds : AddsMember style lines stop entry entry') :
    Describes style lines start (stop + 1) (stop + 1) entry' := by
  have hmin : min (stop + 1) stop = stop := by omega
  -- The line that starts the class declares no member.
  have hstart : (meaningAt? style lines start).bind Meaning.declaration? = none := by
    rw [h.name]
    rfl
  obtain ⟨hname, hparent, hmethods, hevents⟩ := h
  rw [hmin] at hmethods hevents
  refine ⟨?_, ?_, ?_, ?_⟩
  · rw [hadds.name, hname]
  · rw [hadds.parent, hparent]
  · intro name
    rw [hadds.methods, hmethods, Nat.min_self,
      lastBetween_succ_of_le hle (methodAt?_of_not_declaration hstart)]
  · intro name
    rw [hadds.events, hevents, Nat.min_self,
      lastBetween_succ_of_le hle (eventAt?_of_not_declaration hstart)]

end Extraction
end LuaCodex
