import Mathlib.Data.List.TakeWhile
import LuaCodex.Proofs.Json.Token

/-!
This module contains the written forms of JSON values. The main statements are that reading a value
takes one of its written forms from the text, and that each of them is read back.
-/

namespace LuaCodex
namespace Json

/--
Space between tokens.
-/
def IsGap (s : List Char) : Prop :=
  ∀ c ∈ s, isSpace c = true

/--
The texts with commas in between.
-/
def separated (texts : List (List Char)) : List Char :=
  [','].intercalate texts

/--
A text is a key with space around it.
-/
inductive WrittenKey : Quoted → List Char → Prop
  | mk {pieces : List Piece} {before form after : List Char} (hbefore : IsGap before)
    (h : Quoted.Spells form pieces) (hafter : IsGap after) :
    WrittenKey ⟨pieces, none⟩ (before ++ '"' :: (form ++ '"' :: after))

/--
A member of an object, with the texts of its key and of its value.
-/
structure WrittenMember where
  key : Quoted
  keyText : List Char
  value : Json
  valueText : List Char

/--
The text of a member.
-/
def WrittenMember.text (m : WrittenMember) : List Char :=
  m.keyText ++ ':' :: m.valueText

/--
A text is a written form of a value. There can be space around it.
-/
inductive Written : Json → List Char → Prop
  | null : Written .null "null".toList
  | bool (b : Bool) : Written (.bool b) (if b then "true".toList else "false".toList)
  | number {n : Numeral} {form : List Char} (h : Numeral.Spells form n) : Written (.number n) form
  | string {pieces : List Piece} {form : List Char} (h : Quoted.Spells form pieces) :
    Written (.string ⟨pieces, none⟩) ('"' :: form ++ ['"'])
  | emptyArray {gap : List Char} (hgap : IsGap gap) : Written (.array []) ('[' :: gap ++ [']'])
  | array (items : List (Json × List Char)) (hne : items ≠ [])
    (h : ∀ item ∈ items, Written item.1 item.2) :
    Written (.array (items.map (·.1))) ('[' :: separated (items.map (·.2)) ++ [']'])
  | emptyObject {gap : List Char} (hgap : IsGap gap) :
    Written (.object []) ('\x7b' :: gap ++ ['\x7d'])
  | object (members : List WrittenMember) (hne : members ≠ [])
    (hkeys : ∀ m ∈ members, WrittenKey m.key m.keyText)
    (h : ∀ m ∈ members, Written m.value m.valueText) :
    Written (.object (members.map fun m => (m.key, m.value)))
      ('\x7b' :: separated (members.map (·.text)) ++ ['\x7d'])
  | before {v : Json} {s : List Char} {c : Char} (hc : isSpace c = true) (h : Written v s) :
    Written v (c :: s)
  | after {v : Json} {s : List Char} {c : Char} (hc : isSpace c = true) (h : Written v s) :
    Written v (s ++ [c])

/--
A text consists of written forms of some items, with commas in between.
-/
def WrittenItems (items : List Json) (text : List Char) : Prop :=
  ∃ parts : List (Json × List Char), parts ≠ [] ∧ (∀ part ∈ parts, Written part.1 part.2)
    ∧ parts.map (·.1) = items ∧ separated (parts.map (·.2)) = text

/--
A text consists of written forms of some members, with commas in between.
-/
def WrittenMembers (members : List (Quoted × Json)) (text : List Char) : Prop :=
  ∃ parts : List WrittenMember, parts ≠ []
    ∧ (∀ part ∈ parts, WrittenKey part.key part.keyText ∧ Written part.value part.valueText)
    ∧ parts.map (fun part => (part.key, part.value)) = members
    ∧ separated (parts.map (·.text)) = text

/--
A value in front of the characters does not go on with them.
-/
def Stops (rest : List Char) : Prop :=
  ∀ c ∈ rest.head?, isSpace c = true ∨ c = ',' ∨ c = ']' ∨ c = '\x7d'

/--
A value is read from a text, whatever stands behind it, up to space at the end.
-/
def ScansAs (v : Json) (s : List Char) : Prop :=
  ∀ fuel rest, 3 * (s ++ rest).length + 1 ≤ fuel → Stops rest →
    ∃ gap, IsGap gap ∧ scanValue fuel (s ++ rest) = (v, some (gap ++ rest))

/--
A value is read from exactly a text, whatever stands behind it.
-/
def ScansAlone (v : Json) (s : List Char) : Prop :=
  ∀ fuel rest, 3 * (s ++ rest).length + 1 ≤ fuel → scanValue fuel (s ++ rest) = (v, some rest)

variable {v : Json} {key : Quoted} {s gap form text text' rest : List Char} {items : List Json}
variable {members : List (Quoted × Json)}

theorem isGap_nil : IsGap [] := by
  simp [IsGap]

theorem separated_singleton (s : List Char) : separated [s] = s := by
  exact List.intercalate_singleton

theorem separated_cons {texts : List (List Char)} (h : texts ≠ []) (s : List Char) :
    separated (s :: texts) = s ++ ',' :: separated texts := by
  simp [separated, List.intercalate_cons_of_ne_nil h]

theorem Written.gap_append (h : Written v form) (hgap : IsGap gap) : Written v (gap ++ form) := by
  induction gap with
  | nil => exact h
  | cons c gap ih =>
    simp only [IsGap, List.forall_mem_cons] at hgap
    exact .before hgap.1 (ih hgap.2)

theorem Written.append_gap (h : Written v form) (hgap : IsGap gap) : Written v (form ++ gap) := by
  induction gap generalizing form with
  | nil => simpa using h
  | cons c gap ih =>
    simp only [IsGap, List.forall_mem_cons] at hgap
    simpa using ih (.after hgap.1 h) hgap.2

theorem WrittenKey.gap_append (h : WrittenKey key form) (hgap : IsGap gap) :
    WrittenKey key (gap ++ form) := by
  cases h with
  | mk hbefore h hafter =>
    rw [← List.append_assoc]
    refine .mk ?_ h hafter
    simpa [IsGap, or_imp, forall_and] using ⟨hgap, hbefore⟩

theorem WrittenItems.single (h : Written v form) : WrittenItems [v] form := by
  exact ⟨[(v, form)], by simp, by simpa using h, rfl, separated_singleton form⟩

theorem WrittenItems.cons (h : Written v form) (hrest : WrittenItems items text) :
    WrittenItems (v :: items) (form ++ ',' :: text) := by
  obtain ⟨parts, hne, hwritten, rfl, rfl⟩ := hrest
  refine ⟨(v, form) :: parts, by simp, ?_, rfl, separated_cons (by simpa using hne) form⟩
  rw [List.forall_mem_cons]
  exact ⟨h, hwritten⟩

theorem WrittenItems.gap_append (h : WrittenItems items text) (hgap : IsGap gap) :
    WrittenItems items (gap ++ text) := by
  obtain ⟨parts, hne, hwritten, rfl, rfl⟩ := h
  obtain ⟨part, parts, rfl⟩ := List.exists_cons_of_ne_nil hne
  rw [List.forall_mem_cons] at hwritten
  refine ⟨(part.1, gap ++ part.2) :: parts, by simp, ?_, rfl, ?_⟩
  · rw [List.forall_mem_cons]
    exact ⟨hwritten.1.gap_append hgap, hwritten.2⟩
  · by_cases hlast : parts = []
    · simp [hlast, separated_singleton]
    · simp [separated_cons, hlast]

theorem WrittenItems.written (h : WrittenItems items text) :
    Written (.array items) ('[' :: text ++ [']']) := by
  obtain ⟨parts, hne, hwritten, rfl, rfl⟩ := h
  exact .array parts hne hwritten

theorem WrittenMembers.single (hkey : WrittenKey key text) (h : Written v form) :
    WrittenMembers [(key, v)] (text ++ ':' :: form) := by
  refine ⟨[⟨key, text, v, form⟩], by simp, by simpa using ⟨hkey, h⟩, rfl, ?_⟩
  exact separated_singleton _

theorem WrittenMembers.cons (hkey : WrittenKey key text) (h : Written v form)
    (hrest : WrittenMembers members text') :
    WrittenMembers ((key, v) :: members) (text ++ ':' :: form ++ ',' :: text') := by
  obtain ⟨parts, hne, hwritten, rfl, rfl⟩ := hrest
  refine ⟨⟨key, text, v, form⟩ :: parts, by simp, by simpa using ⟨⟨hkey, h⟩, hwritten⟩, rfl, ?_⟩
  exact separated_cons (by simpa using hne) _

theorem WrittenMembers.gap_append (h : WrittenMembers members text) (hgap : IsGap gap) :
    WrittenMembers members (gap ++ text) := by
  obtain ⟨parts, hne, hwritten, rfl, rfl⟩ := h
  obtain ⟨part, parts, rfl⟩ := List.exists_cons_of_ne_nil hne
  rw [List.forall_mem_cons] at hwritten
  refine ⟨{ part with keyText := gap ++ part.keyText } :: parts, by simp, ?_, rfl, ?_⟩
  · rw [List.forall_mem_cons]
    exact ⟨⟨hwritten.1.1.gap_append hgap, hwritten.1.2⟩, hwritten.2⟩
  · by_cases hlast : parts = []
    · simp [hlast, separated_singleton, WrittenMember.text]
    · simp [separated_cons, hlast, WrittenMember.text]

theorem WrittenMembers.written (h : WrittenMembers members text) :
    Written (.object members) ('\x7b' :: text ++ ['\x7d']) := by
  obtain ⟨parts, hne, hwritten, rfl, rfl⟩ := h
  exact .object parts hne (fun part hpart => (hwritten part hpart).1)
    fun part hpart => (hwritten part hpart).2

theorem skipSpace_cons {c : Char} (h : isSpace c = false) (s : List Char) :
    skipSpace (c :: s) = c :: s := by
  unfold skipSpace
  rw [List.dropWhile_cons_of_neg (by simpa using h)]

theorem skipSpace_append (h : IsGap gap) (s : List Char) : skipSpace (gap ++ s) = skipSpace s := by
  exact List.dropWhile_append_of_pos h

theorem exists_gap (s : List Char) : ∃ gap, IsGap gap ∧ s = gap ++ skipSpace s := by
  refine ⟨s.takeWhile isSpace, ?_, List.takeWhile_append_dropWhile.symm⟩
  intro c hc
  exact List.all_eq_true.1 List.all_takeWhile c hc

theorem skipSpace_eq_nil_iff : skipSpace s = [] ↔ IsGap s := by
  exact List.dropWhile_eq_nil_iff

theorem skipSpace_skipSpace (s : List Char) : skipSpace (skipSpace s) = skipSpace s := by
  obtain ⟨gap, hgap, hs⟩ := exists_gap s
  conv => rhs; rw [hs, skipSpace_append hgap]

theorem scanValue_skipSpace (fuel : Nat) (s : List Char) :
    scanValue fuel (skipSpace s) = scanValue fuel s := by
  cases fuel with
  | zero => rfl
  | succ fuel => simp only [scanValue, skipSpace_skipSpace]

theorem scanItem_skipSpace (fuel : Nat) (s : List Char) :
    scanItem fuel (skipSpace s) = scanItem fuel s := by
  cases fuel with
  | zero => rfl
  | succ fuel => simp only [scanItem, scanValue_skipSpace]

theorem scanMember_skipSpace (fuel : Nat) (s : List Char) :
    scanMember fuel (skipSpace s) = scanMember fuel s := by
  cases fuel with
  | zero => rfl
  | succ fuel => simp only [scanMember, skipSpace_skipSpace]

theorem Stops.ends (h : Stops rest) : Numeral.Ends rest := by
  cases rest with
  | nil => exact ⟨by simp [Numeral.NoDigit], by simp, by simp⟩
  | cons c rest =>
    have hc := h c rfl
    simp only [isSpace, Bool.or_eq_true, beq_iff_eq] at hc
    refine ⟨?_, ?_, ?_⟩ <;> rcases hc with ((((rfl | rfl) | rfl) | rfl) | rfl | rfl | rfl) <;>
      simp [Numeral.NoDigit]

theorem stops_cons {c : Char} (hc : isSpace c = true ∨ c = ',' ∨ c = ']' ∨ c = '\x7d') :
    Stops (c :: rest) := by
  simpa [Stops] using hc

theorem isSpace_of_isDigit {c : Char} (h : c.isDigit = true) : isSpace c = false := by
  cases hspace : isSpace c with
  | false => rfl
  | true =>
    simp only [isSpace, Bool.or_eq_true, beq_iff_eq] at hspace
    rcases hspace with ((rfl | rfl) | rfl) | rfl <;> contradiction

theorem Numeral.Spells.exists_head {n : Numeral} (h : Numeral.Spells s n) :
    ∃ c t, s = c :: t ∧ (c = '-' ∨ c.isDigit = true) := by
  obtain ⟨⟨hne, hdigits⟩, -, fraction, exponent, rfl, -, -⟩ := h
  obtain ⟨d, ds, hwhole⟩ := List.exists_cons_of_ne_nil hne
  rw [hwhole] at hdigits ⊢
  cases n.negative with
  | true => exact ⟨'-', _, rfl, Or.inl rfl⟩
  | false => exact ⟨d, _, rfl, Or.inr (hdigits d List.mem_cons_self)⟩

theorem Written.exists_head (h : Written v s) :
    ∃ gap c t, s = gap ++ c :: t ∧ IsGap gap ∧ isSpace c = false ∧ c ≠ ']' := by
  have hstart : ∀ {c : Char} {t : List Char}, isSpace c = false → c ≠ ']' →
      ∃ gap c' t', c :: t = gap ++ c' :: t' ∧ IsGap gap ∧ isSpace c' = false ∧ c' ≠ ']' := by
    intro c t hspace hend
    exact ⟨[], c, t, rfl, isGap_nil, hspace, hend⟩
  induction h with
  | null => exact hstart (by decide) (by decide)
  | bool b => cases b <;> exact hstart (by decide) (by decide)
  | number h =>
    obtain ⟨c, t, rfl, rfl | hc⟩ := h.exists_head
    · exact hstart (by decide) (by decide)
    · refine hstart (isSpace_of_isDigit hc) ?_
      rintro rfl
      contradiction
  | string | emptyArray | array | emptyObject | object => exact hstart (by decide) (by decide)
  | @before v s c hc h ih =>
    obtain ⟨gap, c', t, rfl, hgap, hhead⟩ := ih
    exact ⟨c :: gap, c', t, rfl, by simpa [IsGap] using ⟨hc, hgap⟩, hhead⟩
  | @after v s c hc h ih =>
    obtain ⟨gap, c', t, rfl, hgap, hhead⟩ := ih
    exact ⟨gap, c', t ++ [c], by simp, hgap, hhead⟩

theorem Written.exists_skipSpace (h : Written v s) (rest : List Char) :
    ∃ c t, skipSpace (s ++ rest) = c :: t ∧ c ≠ ']' := by
  obtain ⟨gap, c, t, rfl, hgap, hspace, hend⟩ := h.exists_head
  rw [List.append_assoc, skipSpace_append hgap, List.cons_append, skipSpace_cons hspace]
  exact ⟨c, t ++ rest, rfl, hend⟩

theorem scanItems_gap (h : IsGap gap) (fuel : Nat) (first : Bool) (s : List Char) :
    scanItems fuel first (gap ++ s) = scanItems fuel first s := by
  cases fuel with
  | zero => rfl
  | succ fuel => simp only [scanItems, skipSpace_append h]

theorem scanItems_end (fuel : Nat) (first : Bool) (rest : List Char) :
    scanItems (fuel + 1) first (']' :: rest) = ([], some rest) := by
  simp [scanItems, skipSpace_cons (show isSpace ']' = false by decide)]

theorem scanItems_comma (fuel : Nat) (h : ∃ c t, skipSpace s = c :: t ∧ c ≠ ']') :
    scanItems (fuel + 1) false (',' :: s) = scanItem fuel s := by
  obtain ⟨c, t, hskip, hend⟩ := h
  simp [scanItems, skipSpace_cons (show isSpace ',' = false by decide), hskip, hend]

theorem scanItems_first (fuel : Nat) (h : ∃ c t, skipSpace s = c :: t ∧ c ≠ ']') :
    scanItems (fuel + 1) true s = scanItem fuel s := by
  obtain ⟨c, t, hskip, hend⟩ := h
  simp only [scanItems, hskip, hend, ↓reduceIte]
  rw [← hskip, scanItem_skipSpace]

theorem ScansAs.scanItem (h : ScansAs v s) {fuel : Nat} (hstops : Stops rest)
    (hfuel : 3 * (s ++ rest).length + 1 ≤ fuel) :
    scanItem (fuel + 1) (s ++ rest)
      =
    (v :: (scanItems fuel false rest).1, (scanItems fuel false rest).2) := by
  obtain ⟨gap, hgap, hvalue⟩ := h fuel rest hfuel hstops
  simp only [Json.scanItem, hvalue, scanItems_gap hgap]

theorem exists_skipSpace_separated {items : List (Json × List Char)} (hne : items ≠ [])
    (h : ∀ item ∈ items, Written item.1 item.2) (rest : List Char) :
    ∃ c t, skipSpace (separated (items.map (·.2)) ++ rest) = c :: t ∧ c ≠ ']' := by
  obtain ⟨item, items, rfl⟩ := List.exists_cons_of_ne_nil hne
  rw [List.forall_mem_cons] at h
  by_cases hlast : items = []
  · subst hlast
    simpa only [List.map_cons, List.map_nil, separated_singleton] using h.1.exists_skipSpace rest
  · rw [List.map_cons, separated_cons (by simpa using hlast), List.append_assoc]
    exact h.1.exists_skipSpace _

theorem scanItem_separated {items : List (Json × List Char)} (hne : items ≠ [])
    (hwritten : ∀ item ∈ items, Written item.1 item.2)
    (hscan : ∀ item ∈ items, ScansAs item.1 item.2) (fuel : Nat) (rest : List Char)
    (hfuel : 3 * (separated (items.map (·.2)) ++ ']' :: rest).length + 2 ≤ fuel) :
    scanItem fuel (separated (items.map (·.2)) ++ ']' :: rest)
      =
    (items.map (·.1), some rest) := by
  induction items generalizing fuel with
  | nil => contradiction
  | cons item items ih =>
    rw [List.forall_mem_cons] at hwritten hscan
    obtain ⟨fuel, rfl⟩ := Nat.exists_eq_add_of_le' (Nat.le_trans (Nat.le_add_left 2 _) hfuel)
    by_cases hlast : items = []
    · subst hlast
      simp only [List.map_cons, List.map_nil, separated_singleton] at hfuel ⊢
      rw [hscan.1.scanItem (stops_cons (by simp)) (by omega), scanItems_end]
    · have hmore : items.map (·.2) ≠ [] := by simpa using hlast
      simp only [List.map_cons, separated_cons hmore, List.append_assoc, List.cons_append]
        at hfuel ⊢
      rw [hscan.1.scanItem (stops_cons (by simp)) (by omega)]
      rw [scanItems_comma fuel (exists_skipSpace_separated hlast hwritten.2 _)]
      simp only [List.length_append, List.length_cons] at hfuel
      rw [ih hlast hwritten.2 hscan.2 fuel]
      simp only [List.length_append, List.length_cons]
      omega

theorem scansAs_of_tight {form : List Char}
    (h : ∀ fuel rest, 3 * (form ++ rest).length + 1 ≤ fuel → Stops rest →
      scanValue fuel (form ++ rest) = (v, some rest)) : ScansAs v form := by
  intro fuel rest hfuel hstops
  exact ⟨[], isGap_nil, h fuel rest hfuel hstops⟩

theorem ScansAlone.scansAs (h : ScansAlone v s) : ScansAs v s := by
  apply scansAs_of_tight
  intro fuel rest hfuel _
  exact h fuel rest hfuel

theorem scanLiteral_append (v : Json) (word s : List Char) :
    scanLiteral v word (word ++ s) = (v, some s) := by
  induction word with
  | nil => rfl
  | cons c word ih => simp [scanLiteral, ih]

theorem scansAlone_null : ScansAlone .null "null".toList := by
  intro fuel rest hfuel
  obtain ⟨fuel, rfl⟩ := Nat.exists_eq_add_of_le' (Nat.le_trans (Nat.le_add_left 1 _) hfuel)
  exact scanLiteral_append .null "ull".toList rest

theorem scansAlone_bool (b : Bool) :
    ScansAlone (.bool b) (if b then "true".toList else "false".toList) := by
  intro fuel rest hfuel
  obtain ⟨fuel, rfl⟩ := Nat.exists_eq_add_of_le' (Nat.le_trans (Nat.le_add_left 1 _) hfuel)
  cases b with
  | true => exact scanLiteral_append (.bool true) "rue".toList rest
  | false => exact scanLiteral_append (.bool false) "alse".toList rest

theorem scansAs_number {n : Numeral} (h : Numeral.Spells s n) : ScansAs (.number n) s := by
  apply scansAs_of_tight
  intro fuel rest hfuel hstops
  obtain ⟨fuel, rfl⟩ := Nat.exists_eq_add_of_le' (Nat.le_trans (Nat.le_add_left 1 _) hfuel)
  have hscan := h.scan hstops.ends
  obtain ⟨c, t, rfl, hc⟩ := h.exists_head
  have hspace : isSpace c = false := by
    rcases hc with rfl | hc
    · decide
    · exact isSpace_of_isDigit hc
  have hnot : ∀ d : Char, d ≠ '-' → d.isDigit = false → c ≠ d := by
    rintro d hminus hdigit rfl
    rcases hc with rfl | hc
    · contradiction
    · rw [hdigit] at hc
      contradiction
  rw [List.cons_append] at hscan ⊢
  simp only [scanValue, skipSpace_cons hspace]
  -- A number starts with none of the characters that stand for other values.
  rw [if_neg (hnot _ (by decide) (by decide)), if_neg (hnot _ (by decide) (by decide)),
    if_neg (hnot _ (by decide) (by decide)), if_neg (hnot _ (by decide) (by decide)),
    if_neg (hnot _ (by decide) (by decide)), if_neg (hnot _ (by decide) (by decide)),
    if_pos (by simpa using hc)]
  simp only [scanNumber, hscan]

theorem scansAlone_string {pieces : List Piece} (h : Quoted.Spells s pieces) :
    ScansAlone (.string ⟨pieces, none⟩) ('"' :: s ++ ['"']) := by
  intro fuel rest hfuel
  obtain ⟨fuel, rfl⟩ := Nat.exists_eq_add_of_le' (Nat.le_trans (Nat.le_add_left 1 _) hfuel)
  simp only [List.cons_append, List.append_assoc, List.nil_append, scanValue]
  rw [skipSpace_cons (by decide)]
  simp only [↓reduceIte, h.scan]

theorem scansAlone_array (items : List (Json × List Char)) (hne : items ≠ [])
    (hwritten : ∀ item ∈ items, Written item.1 item.2)
    (hscan : ∀ item ∈ items, ScansAs item.1 item.2) :
    ScansAlone (.array (items.map (·.1))) ('[' :: separated (items.map (·.2)) ++ [']']) := by
  intro fuel rest hfuel
  obtain ⟨fuel, rfl⟩ := Nat.exists_eq_add_of_le' (Nat.le_trans (Nat.le_add_left 1 _) hfuel)
  simp only [List.cons_append, List.append_assoc, List.nil_append, List.length_cons,
    List.length_append] at hfuel ⊢
  obtain ⟨fuel, rfl⟩ := Nat.exists_eq_add_of_le' (show 1 ≤ fuel by omega)
  simp only [scanValue, skipSpace_cons (show isSpace '[' = false by decide), Char.reduceEq,
    ↓reduceIte]
  rw [scanItems_first fuel (exists_skipSpace_separated hne hwritten _)]
  rw [scanItem_separated hne hwritten hscan]
  simp only [List.length_cons, List.length_append]
  omega

theorem scansAlone_emptyArray (hgap : IsGap gap) :
    ScansAlone (.array []) ('[' :: gap ++ [']']) := by
  intro fuel rest hfuel
  obtain ⟨fuel, rfl⟩ := Nat.exists_eq_add_of_le' (Nat.le_trans (Nat.le_add_left 1 _) hfuel)
  simp only [List.cons_append, List.append_assoc, List.nil_append, List.length_cons,
    List.length_append] at hfuel ⊢
  obtain ⟨fuel, rfl⟩ := Nat.exists_eq_add_of_le' (show 1 ≤ fuel by omega)
  simp only [scanValue, skipSpace_cons (show isSpace '[' = false by decide), Char.reduceEq,
    ↓reduceIte, scanItems_gap hgap, scanItems_end]

theorem WrittenKey.exists_head {key : Quoted} (h : WrittenKey key s) :
    ∃ gap t, s = gap ++ '"' :: t ∧ IsGap gap := by
  cases h with
  | mk hbefore h hafter => exact ⟨_, _, rfl, hbefore⟩

theorem scanMembers_gap (h : IsGap gap) (fuel : Nat) (first : Bool) (s : List Char) :
    scanMembers fuel first (gap ++ s) = scanMembers fuel first s := by
  cases fuel with
  | zero => rfl
  | succ fuel => simp only [scanMembers, skipSpace_append h]

theorem scanMembers_end (fuel : Nat) (first : Bool) (rest : List Char) :
    scanMembers (fuel + 1) first ('\x7d' :: rest) = ([], some rest) := by
  simp [scanMembers, skipSpace_cons (show isSpace '\x7d' = false by decide)]

theorem scanMembers_comma (fuel : Nat) (h : ∃ t, skipSpace s = '"' :: t) :
    scanMembers (fuel + 1) false (',' :: s) = scanMember fuel s := by
  obtain ⟨t, hskip⟩ := h
  simp [scanMembers, skipSpace_cons (show isSpace ',' = false by decide), hskip]

theorem scanMembers_first (fuel : Nat) (h : ∃ t, skipSpace s = '"' :: t) :
    scanMembers (fuel + 1) true s = scanMember fuel s := by
  obtain ⟨t, hskip⟩ := h
  simp only [scanMembers, hskip, Char.reduceEq, ↓reduceIte]
  rw [← hskip, scanMember_skipSpace]

theorem WrittenKey.scanMember {key : Quoted} (h : WrittenKey key s) (fuel : Nat)
    (rest : List Char) :
    scanMember (fuel + 1) (s ++ ':' :: rest)
      =
    match scanValue fuel rest with
    | (value, none) => ([(key, value)], none)
    | (value, some rest) =>
      ((key, value) :: (scanMembers fuel false rest).1, (scanMembers fuel false rest).2) := by
  cases h with
  | mk hbefore hform hafter =>
    rcases hvalue : scanValue fuel rest with ⟨value, _ | back⟩ <;>
      simp only [Json.scanMember, List.append_assoc, List.cons_append, skipSpace_append hbefore,
        skipSpace_append hafter, skipSpace_cons (show isSpace '"' = false by decide),
        skipSpace_cons (show isSpace ':' = false by decide), ↓reduceIte, hform.scan, hvalue]

theorem scanMember_of_scansAs {m : WrittenMember} (hkey : WrittenKey m.key m.keyText)
    (h : ScansAs m.value m.valueText) {fuel : Nat} (hstops : Stops rest)
    (hfuel : 3 * (m.valueText ++ rest).length + 1 ≤ fuel) :
    scanMember (fuel + 1) (m.text ++ rest)
      =
    ((m.key, m.value) :: (scanMembers fuel false rest).1, (scanMembers fuel false rest).2) := by
  obtain ⟨gap, hgap, hvalue⟩ := h fuel rest hfuel hstops
  simp only [WrittenMember.text, List.append_assoc, List.cons_append, hkey.scanMember, hvalue,
    scanMembers_gap hgap]

theorem exists_skipSpace_members {members : List WrittenMember} (hne : members ≠ [])
    (hkeys : ∀ m ∈ members, WrittenKey m.key m.keyText) (rest : List Char) :
    ∃ t, skipSpace (separated (members.map (·.text)) ++ rest) = '"' :: t := by
  obtain ⟨m, members, rfl⟩ := List.exists_cons_of_ne_nil hne
  rw [List.forall_mem_cons] at hkeys
  obtain ⟨gap, t, hkey, hgap⟩ := hkeys.1.exists_head
  have hmember : ∀ rest, ∃ t, skipSpace (m.text ++ rest) = '"' :: t := by
    intro rest
    simp only [WrittenMember.text, hkey, List.append_assoc, skipSpace_append hgap]
    exact ⟨_, skipSpace_cons (by decide) _⟩
  by_cases hlast : members = []
  · subst hlast
    simpa only [List.map_cons, List.map_nil, separated_singleton] using hmember rest
  · rw [List.map_cons, separated_cons (by simpa using hlast), List.append_assoc]
    exact hmember _

theorem scanMember_separated {members : List WrittenMember} (hne : members ≠ [])
    (hkeys : ∀ m ∈ members, WrittenKey m.key m.keyText)
    (hscan : ∀ m ∈ members, ScansAs m.value m.valueText) (fuel : Nat) (rest : List Char)
    (hfuel : 3 * (separated (members.map (·.text)) ++ '\x7d' :: rest).length + 2 ≤ fuel) :
    scanMember fuel (separated (members.map (·.text)) ++ '\x7d' :: rest)
      =
    (members.map (fun m => (m.key, m.value)), some rest) := by
  induction members generalizing fuel with
  | nil => contradiction
  | cons m members ih =>
    rw [List.forall_mem_cons] at hkeys hscan
    obtain ⟨fuel, rfl⟩ := Nat.exists_eq_add_of_le' (Nat.le_trans (Nat.le_add_left 2 _) hfuel)
    have hlength : m.text.length = m.keyText.length + 1 + m.valueText.length := by
      simp [WrittenMember.text]
      omega
    by_cases hlast : members = []
    · subst hlast
      simp only [List.map_cons, List.map_nil, separated_singleton, List.length_append] at hfuel ⊢
      rw [scanMember_of_scansAs hkeys.1 hscan.1 (stops_cons (by simp)), scanMembers_end]
      simp only [List.length_append]
      omega
    · have hmore : members.map (·.text) ≠ [] := by simpa using hlast
      simp only [List.map_cons, separated_cons hmore, List.append_assoc, List.cons_append,
        List.length_append, List.length_cons] at hfuel ⊢
      rw [scanMember_of_scansAs hkeys.1 hscan.1 (stops_cons (by simp))]
      · rw [scanMembers_comma fuel (exists_skipSpace_members hlast hkeys.2 _)]
        rw [ih hlast hkeys.2 hscan.2 fuel]
        simp only [List.length_append, List.length_cons]
        omega
      · simp only [List.length_append, List.length_cons]
        omega

theorem scansAlone_emptyObject (hgap : IsGap gap) :
    ScansAlone (.object []) ('\x7b' :: gap ++ ['\x7d']) := by
  intro fuel rest hfuel
  obtain ⟨fuel, rfl⟩ := Nat.exists_eq_add_of_le' (Nat.le_trans (Nat.le_add_left 1 _) hfuel)
  simp only [List.cons_append, List.append_assoc, List.nil_append, List.length_cons,
    List.length_append] at hfuel ⊢
  obtain ⟨fuel, rfl⟩ := Nat.exists_eq_add_of_le' (show 1 ≤ fuel by omega)
  simp only [scanValue, skipSpace_cons (show isSpace '\x7b' = false by decide), Char.reduceEq,
    ↓reduceIte, scanMembers_gap hgap, scanMembers_end]

theorem scansAlone_object (members : List WrittenMember) (hne : members ≠ [])
    (hkeys : ∀ m ∈ members, WrittenKey m.key m.keyText)
    (hscan : ∀ m ∈ members, ScansAs m.value m.valueText) :
    ScansAlone (.object (members.map fun m => (m.key, m.value)))
      ('\x7b' :: separated (members.map (·.text)) ++ ['\x7d']) := by
  intro fuel rest hfuel
  obtain ⟨fuel, rfl⟩ := Nat.exists_eq_add_of_le' (Nat.le_trans (Nat.le_add_left 1 _) hfuel)
  simp only [List.cons_append, List.append_assoc, List.nil_append, List.length_cons,
    List.length_append] at hfuel ⊢
  obtain ⟨fuel, rfl⟩ := Nat.exists_eq_add_of_le' (show 1 ≤ fuel by omega)
  simp only [scanValue, skipSpace_cons (show isSpace '\x7b' = false by decide), Char.reduceEq,
    ↓reduceIte]
  rw [scanMembers_first fuel (exists_skipSpace_members hne hkeys _)]
  rw [scanMember_separated hne hkeys hscan]
  simp only [List.length_cons, List.length_append]
  omega

theorem Written.scansAs (h : Written v s) : ScansAs v s := by
  induction h with
  | null => exact scansAlone_null.scansAs
  | bool b => exact (scansAlone_bool b).scansAs
  | number h => exact scansAs_number h
  | string h => exact (scansAlone_string h).scansAs
  | emptyArray hgap => exact (scansAlone_emptyArray hgap).scansAs
  | array items hne h ih => exact (scansAlone_array items hne h ih).scansAs
  | emptyObject hgap => exact (scansAlone_emptyObject hgap).scansAs
  | object members hne hkeys h ih => exact (scansAlone_object members hne hkeys ih).scansAs
  | @before v s c hc h ih =>
    intro fuel rest hfuel hstops
    rw [List.cons_append, List.length_cons] at hfuel
    obtain ⟨gap, hgap, hvalue⟩ := ih fuel rest (by omega) hstops
    refine ⟨gap, hgap, ?_⟩
    have hspace : IsGap [c] := by simpa [IsGap] using hc
    have hskip := skipSpace_append hspace (s ++ rest)
    rw [← hvalue, ← scanValue_skipSpace, ← scanValue_skipSpace fuel (s ++ rest), ← hskip]
    rfl
  | @after v s c hc h ih =>
    intro fuel rest hfuel hstops
    rw [List.append_assoc] at hfuel ⊢
    obtain ⟨gap, hgap, hvalue⟩ := ih fuel _ hfuel (stops_cons (Or.inl hc))
    refine ⟨gap ++ [c], ?_, by simpa using hvalue⟩
    simp only [IsGap, List.mem_append, List.mem_singleton]
    rintro d (hd | rfl)
    · exact hgap d hd
    · exact hc

/--
A written form of a value is read back, and what remains is space.
-/
theorem Written.scan (h : Written v s) : ∃ gap, IsGap gap ∧ scan s = (v, some gap) := by
  obtain ⟨gap, hgap, hvalue⟩ := h.scansAs (3 * s.length + 1) [] (by simp) (by simp [Stops])
  rw [List.append_nil, List.append_nil] at hvalue
  exact ⟨gap, hgap, hvalue⟩

end Json
end LuaCodex
