import LuaCodex.Proofs.Json.Written

/-!
This module contains what the reading of a JSON value takes from a text. The main statement is that
it takes a written form of the value.
-/

namespace LuaCodex
namespace Json

/--
What is read with some amount of fuel is taken from the text as it is written there.
-/
structure TakesForms (fuel : Nat) : Prop where
  value : ∀ {s v rest}, scanValue fuel s = (v, some rest) →
    ∃ form, s = form ++ rest ∧ Written v form
  item : ∀ {s items rest}, scanItem fuel s = (items, some rest) →
    ∃ text, s = text ++ ']' :: rest ∧ WrittenItems items text
  firstItems : ∀ {s items rest}, scanItems fuel true s = (items, some rest) →
    ∃ text, s = text ++ ']' :: rest ∧ (items = [] ∧ IsGap text ∨ WrittenItems items text)
  moreItems : ∀ {s items rest}, scanItems fuel false s = (items, some rest) →
    ∃ gap, IsGap gap ∧ (items = [] ∧ s = gap ++ ']' :: rest
      ∨ ∃ text, s = gap ++ ',' :: (text ++ ']' :: rest) ∧ WrittenItems items text)
  member : ∀ {s members rest}, scanMember fuel s = (members, some rest) →
    ∃ text, s = text ++ '\x7d' :: rest ∧ WrittenMembers members text
  firstMembers : ∀ {s members rest}, scanMembers fuel true s = (members, some rest) →
    ∃ text, s = text ++ '\x7d' :: rest ∧ (members = [] ∧ IsGap text ∨ WrittenMembers members text)
  moreMembers : ∀ {s members rest}, scanMembers fuel false s = (members, some rest) →
    ∃ gap, IsGap gap ∧ (members = [] ∧ s = gap ++ '\x7d' :: rest
      ∨ ∃ text, s = gap ++ ',' :: (text ++ '\x7d' :: rest) ∧ WrittenMembers members text)

variable {v v' : Json} {key : Quoted} {s gap form text text' rest : List Char} {items : List Json}
variable {members : List (Quoted × Json)} {fuel : Nat}

theorem eq_of_scanLiteral {word : List Char} (h : scanLiteral v word s = (v', some rest)) :
    v' = v ∧ s = word ++ rest := by
  induction word generalizing s with
  | nil =>
    cases h
    exact ⟨rfl, rfl⟩
  | cons c word ih =>
    cases s with
    | nil => simp [scanLiteral] at h
    | cons d s =>
      unfold scanLiteral at h
      split at h
      · next heq =>
        obtain ⟨rfl, rfl⟩ := ih h
        exact ⟨rfl, by rw [heq, List.cons_append]⟩
      · simp at h

theorem TakesForms.value_succ (h : TakesForms fuel)
    (hread : scanValue (fuel + 1) s = (v, some rest)) :
    ∃ form, s = form ++ rest ∧ Written v form := by
  obtain ⟨gap, hgap, hs⟩ := exists_gap s
  -- The form without the space in front of it is enough.
  suffices htight : ∃ form, skipSpace s = form ++ rest ∧ Written v form by
    obtain ⟨form, hform, hwritten⟩ := htight
    refine ⟨gap ++ form, ?_, hwritten.gap_append hgap⟩
    rw [List.append_assoc, ← hform]
    exact hs
  simp only [scanValue] at hread
  cases hskip : skipSpace s with
  | nil => simp [hskip] at hread
  | cons c t =>
    simp only [hskip] at hread
    split at hread
    · next hc =>
      rcases hscan : Quoted.scan t with ⟨q, rest'⟩
      simp only [hscan, Prod.mk.injEq] at hread
      obtain ⟨rfl, rfl⟩ := hread
      obtain ⟨hfault, form, rfl, hform⟩ := Quoted.spells_of_scan hscan
      obtain ⟨pieces, fault⟩ := q
      subst hc hfault
      exact ⟨'"' :: form ++ ['"'], by simp, .string hform⟩
    split at hread
    · next hc =>
      rcases hscan : scanItems fuel true t with ⟨items, rest'⟩
      simp only [hscan, Prod.mk.injEq] at hread
      obtain ⟨rfl, rfl⟩ := hread
      obtain ⟨text, rfl, ⟨rfl, htext⟩ | htext⟩ := h.firstItems hscan
      · exact ⟨'[' :: text ++ [']'], by simp [hc], .emptyArray htext⟩
      · exact ⟨'[' :: text ++ [']'], by simp [hc], htext.written⟩
    split at hread
    · next hc =>
      rcases hscan : scanMembers fuel true t with ⟨members, rest'⟩
      simp only [hscan, Prod.mk.injEq] at hread
      obtain ⟨rfl, rfl⟩ := hread
      obtain ⟨text, rfl, ⟨rfl, htext⟩ | htext⟩ := h.firstMembers hscan
      · exact ⟨'\x7b' :: text ++ ['\x7d'], by simp [hc], .emptyObject htext⟩
      · exact ⟨'\x7b' :: text ++ ['\x7d'], by simp [hc], htext.written⟩
    split at hread
    · next hc =>
      obtain ⟨rfl, rfl⟩ := eq_of_scanLiteral hread
      exact ⟨"null".toList, by simp [hc], .null⟩
    split at hread
    · next hc =>
      obtain ⟨rfl, rfl⟩ := eq_of_scanLiteral hread
      exact ⟨"true".toList, by simp [hc], .bool true⟩
    split at hread
    · next hc =>
      obtain ⟨rfl, rfl⟩ := eq_of_scanLiteral hread
      exact ⟨"false".toList, by simp [hc], .bool false⟩
    split at hread
    · unfold scanNumber at hread
      split at hread
      · next n rest' hscan =>
        simp only [Prod.mk.injEq, Option.some.injEq] at hread
        obtain ⟨rfl, rfl⟩ := hread
        obtain ⟨form, hform, hspells⟩ := Numeral.spells_of_scan hscan
        exact ⟨form, hform, .number hspells⟩
      · simp at hread
    · simp at hread

theorem TakesForms.item_succ (h : TakesForms fuel)
    (hread : scanItem (fuel + 1) s = (items, some rest)) :
    ∃ text, s = text ++ ']' :: rest ∧ WrittenItems items text := by
  simp only [scanItem] at hread
  split at hread
  · simp at hread
  · next v s' hvalue =>
    rcases hscan : scanItems fuel false s' with ⟨more, rest'⟩
    simp only [hscan, Prod.mk.injEq] at hread
    obtain ⟨rfl, rfl⟩ := hread
    obtain ⟨form, rfl, hform⟩ := h.value hvalue
    obtain ⟨gap, hgap, ⟨rfl, rfl⟩ | ⟨text, rfl, htext⟩⟩ := h.moreItems hscan
    · exact ⟨form ++ gap, by simp, .single (hform.append_gap hgap)⟩
    · exact ⟨form ++ gap ++ ',' :: text, by simp, (htext.cons (hform.append_gap hgap))⟩

theorem TakesForms.firstItems_succ (h : TakesForms fuel)
    (hread : scanItems (fuel + 1) true s = (items, some rest)) :
    ∃ text, s = text ++ ']' :: rest ∧ (items = [] ∧ IsGap text ∨ WrittenItems items text) := by
  obtain ⟨gap, hgap, hs⟩ := exists_gap s
  simp only [scanItems] at hread
  split at hread
  · simp at hread
  · next c t hskip =>
    rw [hskip] at hs
    split at hread
    · next hc =>
      cases hread
      exact ⟨gap, by rw [hs, hc], Or.inl ⟨rfl, hgap⟩⟩
    · obtain ⟨text, htext, hitems⟩ := h.item hread
      refine ⟨gap ++ text, ?_, Or.inr (hitems.gap_append hgap)⟩
      rw [hs, htext, List.append_assoc]

theorem TakesForms.moreItems_succ (h : TakesForms fuel)
    (hread : scanItems (fuel + 1) false s = (items, some rest)) :
    ∃ gap, IsGap gap ∧ (items = [] ∧ s = gap ++ ']' :: rest
      ∨ ∃ text, s = gap ++ ',' :: (text ++ ']' :: rest) ∧ WrittenItems items text) := by
  obtain ⟨gap, hgap, hs⟩ := exists_gap s
  refine ⟨gap, hgap, ?_⟩
  simp only [scanItems] at hread
  split at hread
  · simp at hread
  · next c t hskip =>
    rw [hskip] at hs
    split at hread
    · next hc =>
      cases hread
      exact Or.inl ⟨rfl, by rw [hs, hc]⟩
    · rw [if_neg (by simp)] at hread
      split at hread
      · next hc =>
        split at hread
        · simp at hread
        · obtain ⟨text, htext, hitems⟩ := h.item hread
          exact Or.inr ⟨text, by rw [hs, hc, htext], hitems⟩
      · simp at hread

theorem TakesForms.member_succ (h : TakesForms fuel)
    (hread : scanMember (fuel + 1) s = (members, some rest)) :
    ∃ text, s = text ++ '\x7d' :: rest ∧ WrittenMembers members text := by
  obtain ⟨gap, hgap, hs⟩ := exists_gap s
  simp only [scanMember] at hread
  split at hread
  · simp [stopMembers] at hread
  · next c t hskip =>
    rw [hskip] at hs
    split at hread
    · next hc =>
      split at hread
      · simp at hread
      · next q t' hscan =>
        obtain ⟨hfault, form, rfl, hform⟩ := Quoted.spells_of_scan hscan
        obtain ⟨gap', hgap', ht'⟩ := exists_gap t'
        obtain ⟨pieces, fault⟩ := q
        subst hc hfault
        split at hread
        · simp at hread
        · next c' t'' hskip' =>
          rw [hskip'] at ht'
          split at hread
          · next hc' =>
            have hkey : WrittenKey ⟨pieces, none⟩ (gap ++ '"' :: (form ++ '"' :: gap')) :=
              .mk hgap hform hgap'
            split at hread
            · simp at hread
            · next value back hvalue =>
              rcases hscan' : scanMembers fuel false back with ⟨more, rest'⟩
              simp only [hscan', Prod.mk.injEq] at hread
              obtain ⟨rfl, rfl⟩ := hread
              obtain ⟨valueForm, rfl, hvalueForm⟩ := h.value hvalue
              obtain ⟨gap'', hgap'', ⟨rfl, rfl⟩ | ⟨text, rfl, htext⟩⟩ := h.moreMembers hscan'
              · refine ⟨_, ?_, .single hkey (hvalueForm.append_gap hgap'')⟩
                simp [hs, ht', hc']
              · refine ⟨_, ?_, htext.cons hkey (hvalueForm.append_gap hgap'')⟩
                simp [hs, ht', hc']
          · simp at hread
    · simp [stopMembers] at hread

theorem TakesForms.firstMembers_succ (h : TakesForms fuel)
    (hread : scanMembers (fuel + 1) true s = (members, some rest)) :
    ∃ text, s = text ++ '\x7d' :: rest
      ∧ (members = [] ∧ IsGap text ∨ WrittenMembers members text) := by
  obtain ⟨gap, hgap, hs⟩ := exists_gap s
  simp only [scanMembers] at hread
  split at hread
  · simp [stopMembers] at hread
  · next c t hskip =>
    rw [hskip] at hs
    split at hread
    · next hc =>
      cases hread
      exact ⟨gap, by rw [hs, hc], Or.inl ⟨rfl, hgap⟩⟩
    · obtain ⟨text, htext, hmembers⟩ := h.member hread
      refine ⟨gap ++ text, ?_, Or.inr (hmembers.gap_append hgap)⟩
      rw [hs, htext, List.append_assoc]

theorem TakesForms.moreMembers_succ (h : TakesForms fuel)
    (hread : scanMembers (fuel + 1) false s = (members, some rest)) :
    ∃ gap, IsGap gap ∧ (members = [] ∧ s = gap ++ '\x7d' :: rest
      ∨ ∃ text, s = gap ++ ',' :: (text ++ '\x7d' :: rest) ∧ WrittenMembers members text) := by
  obtain ⟨gap, hgap, hs⟩ := exists_gap s
  refine ⟨gap, hgap, ?_⟩
  simp only [scanMembers] at hread
  split at hread
  · simp [stopMembers] at hread
  · next c t hskip =>
    rw [hskip] at hs
    split at hread
    · next hc =>
      cases hread
      exact Or.inl ⟨rfl, by rw [hs, hc]⟩
    · rw [if_neg (by simp)] at hread
      split at hread
      · next hc =>
        split at hread
        · simp [stopMembers] at hread
        · obtain ⟨text, htext, hmembers⟩ := h.member hread
          exact Or.inr ⟨text, by rw [hs, hc, htext], hmembers⟩
      · simp [stopMembers] at hread

theorem takesForms (fuel : Nat) : TakesForms fuel := by
  induction fuel with
  | zero =>
    constructor <;> simp [scanValue, scanItem, scanItems, scanMember, scanMembers, stopMembers]
  | succ fuel ih =>
    exact ⟨ih.value_succ, ih.item_succ, ih.firstItems_succ, ih.moreItems_succ, ih.member_succ,
      ih.firstMembers_succ, ih.moreMembers_succ⟩

/--
What is read without breaking off is taken from the text as it is written there.
-/
theorem exists_written_of_scan (h : scan s = (v, some rest)) :
    ∃ form, s = form ++ rest ∧ Written v form := by
  exact (takesForms _).value h

end Json
end LuaCodex
