import LuaCodex.Proofs.Json.Record

/-!
This module contains the written forms of JSON strings and numbers, whatever escapes and signs they
use. The main statements are that reading a string or a number takes one of its written forms from
the text, and that every written form is read back.
-/

namespace LuaCodex
namespace Json

namespace Quoted

/--
The value of some hexadecimal digits behind others with the value `start`.
-/
def hexValue? (start : Nat) (digits : List Char) : Option Nat :=
  digits.foldlM (fun value c => (hexDigit? c).map (value * 16 + ·)) start

/--
A text between quotes spells some pieces.
-/
inductive Spells : List Char → List Piece → Prop
  | nil : Spells [] []
  | char {s : List Char} {pieces : List Piece} (c : Char) (hquote : c ≠ '"') (hslash : c ≠ '\\')
    (hcontrol : ¬ c.toNat < 0x20) (h : Spells s pieces) : Spells (c :: s) (.char c :: pieces)
  | escape {s : List Char} {pieces : List Piece} (letter c : Char)
    (hletter : unescape? letter = some c) (h : Spells s pieces) :
    Spells ('\\' :: letter :: s) (.char c :: pieces)
  | code {s : List Char} {pieces : List Piece} (digits : List Char) (code : Nat)
    (hlength : digits.length = 4) (hcode : hexValue? 0 digits = some code) (h : Spells s pieces) :
    Spells ('\\' :: 'u' :: digits ++ s) (.ofCode code :: pieces)

variable {s form rest digits : List Char} {pieces : List Piece} {q : Quoted} {place : Place}
variable {count value code : Nat}

theorem hexValue?_cons {start : Nat} {c : Char} :
    hexValue? start (c :: digits)
      =
    (hexDigit? c).bind fun n => hexValue? (start * 16 + n) digits := by
  unfold hexValue?
  rw [List.foldlM_cons]
  cases hexDigit? c <;> rfl

theorem hexValue?_concat {start : Nat} {c : Char} {n : Nat}
    (h : hexValue? start digits = some value) (hc : hexDigit? c = some n) :
    hexValue? start (digits ++ [c]) = some (value * 16 + n) := by
  unfold hexValue? at h ⊢
  rw [List.foldlM_append, h]
  simp [hc]

theorem scanFrom_digits (hne : digits ≠ []) (hcount : count + digits.length = 4)
    (hcode : hexValue? value digits = some code) (s : List Char) :
    scanFrom (.hex count value) (digits ++ s) = push (.ofCode code) (scanFrom .plain s) := by
  induction digits generalizing count value with
  | nil => contradiction
  | cons c digits ih =>
    rw [hexValue?_cons, Option.bind_eq_some_iff] at hcode
    obtain ⟨n, hn, hcode⟩ := hcode
    simp only [List.cons_append, scanFrom, hn]
    rw [List.length_cons] at hcount
    by_cases hlast : digits = []
    · subst hlast
      obtain rfl : value * 16 + n = code := by simpa [hexValue?] using hcode
      simp only [List.length_nil] at hcount
      rw [if_neg (by omega), List.nil_append]
    · have hpos := List.length_pos_iff.2 hlast
      rw [if_pos (by omega)]
      exact ih hlast (by omega) hcode

theorem unescape?_u : unescape? 'u' = none := by decide

theorem Spells.scan (h : Spells form pieces) (s : List Char) :
    scan (form ++ '"' :: s) = (⟨pieces, none⟩, some s) := by
  unfold Quoted.scan
  induction h with
  | nil => simp [scanFrom]
  | char c hquote hslash hcontrol h ih =>
    simp only [List.cons_append, scanFrom, hquote, hslash, hcontrol, ↓reduceIte, ih]
    rfl
  | escape letter c hletter h ih =>
    have hu : letter ≠ 'u' := by
      rintro rfl
      rw [unescape?_u] at hletter
      contradiction
    simp only [List.cons_append, scanFrom, Char.reduceEq, ↓reduceIte, hu, hletter, ih]
    rfl
  | code digits code hlength hcode h ih =>
    have hdigits : digits ≠ [] := by
      rintro rfl
      contradiction
    simp only [List.cons_append, List.append_assoc, scanFrom, Char.reduceEq, ↓reduceIte]
    rw [scanFrom_digits hdigits (by omega) hcode, ih]
    rfl

/--
A text spells some pieces from some place in a string to its end.
-/
def SpellsFrom : Place → List Char → List Piece → Prop
  | .plain, form, pieces => Spells form pieces
  | .escape, form, pieces => Spells ('\\' :: form) pieces
  | .hex count value, form, pieces =>
    count < 4 → ∀ digits, digits.length = count → hexValue? 0 digits = some value →
      Spells ('\\' :: 'u' :: digits ++ form) pieces

theorem exists_push {piece : Piece} {read : Quoted × Option (List Char)}
    (h : push piece read = (q, some rest)) :
    ∃ q', read = (q', some rest) ∧ q.pieces = piece :: q'.pieces ∧ q.fault = q'.fault := by
  obtain ⟨q', rest'⟩ := read
  cases h
  exact ⟨q', rfl, rfl, rfl⟩

theorem spellsFrom_of_scanFrom (h : scanFrom place s = (q, some rest)) :
    q.fault = none ∧ ∃ form, s = form ++ '"' :: rest ∧ SpellsFrom place form q.pieces := by
  induction s generalizing place q with
  | nil => simp [scanFrom, stop] at h
  | cons c s ih =>
    cases place with
    | plain =>
      simp only [scanFrom] at h
      split at h
      · next hquote =>
        cases h
        exact ⟨rfl, [], by simp [hquote], .nil⟩
      · next hquote =>
        split at h
        · next hslash =>
          obtain ⟨hfault, form, rfl, hspells⟩ := ih h
          exact ⟨hfault, c :: form, rfl, hslash ▸ hspells⟩
        · next hslash =>
          split at h
          · simp [stop] at h
          · next hcontrol =>
            obtain ⟨q', hread, hpieces, hfault⟩ := exists_push h
            obtain ⟨hfault', form, rfl, hspells⟩ := ih hread
            refine ⟨hfault.trans hfault', c :: form, rfl, ?_⟩
            rw [hpieces]
            exact .char c hquote hslash hcontrol hspells
    | escape =>
      simp only [scanFrom] at h
      split at h
      · next hu =>
        obtain ⟨hfault, form, rfl, hspells⟩ := ih h
        exact ⟨hfault, c :: form, rfl, hu ▸ hspells (by omega) [] rfl rfl⟩
      · split at h
        · next c' hletter =>
          obtain ⟨q', hread, hpieces, hfault⟩ := exists_push h
          obtain ⟨hfault', form, rfl, hspells⟩ := ih hread
          refine ⟨hfault.trans hfault', c :: form, rfl, ?_⟩
          rw [hpieces]
          exact .escape c c' hletter hspells
        · simp [stop] at h
    | hex count value =>
      simp only [scanFrom] at h
      split at h
      · next n hn =>
        split at h
        · next hcount =>
          obtain ⟨hfault, form, rfl, hspells⟩ := ih h
          refine ⟨hfault, c :: form, rfl, ?_⟩
          intro _ digits hlength hvalue
          have hform := hspells (by omega) (digits ++ [c]) (by simp [hlength])
            (hexValue?_concat hvalue hn)
          simpa using hform
        · next hcount =>
          obtain ⟨q', hread, hpieces, hfault⟩ := exists_push h
          obtain ⟨hfault', form, rfl, hspells⟩ := ih hread
          refine ⟨hfault.trans hfault', c :: form, rfl, ?_⟩
          intro hlast digits hlength hvalue
          have hform := Spells.code (digits ++ [c]) _ (by simp; omega)
            (hexValue?_concat hvalue hn) hspells
          rw [hpieces]
          simpa using hform
      · simp [stop] at h

theorem spells_of_scan (h : scan s = (q, some rest)) :
    q.fault = none ∧ ∃ form, s = form ++ '"' :: rest ∧ Spells form q.pieces := by
  exact spellsFrom_of_scanFrom h

theorem fault_scanFrom (place : Place) (s : List Char) (h : (scanFrom place s).2 = none) :
    (scanFrom place s).1.fault ≠ none := by
  fun_induction scanFrom place s <;> simp_all [stop, push]

theorem fault_of_scan (h : scan s = (q, none)) : q.fault ≠ none := by
  have hfault := fault_scanFrom .plain s
  unfold scan at h
  rw [h] at hfault
  exact hfault rfl

end Quoted
namespace Numeral

/--
One or more decimal digits.
-/
def IsDigits (ds : List Char) : Prop :=
  ds ≠ [] ∧ ∀ d ∈ ds, d.isDigit = true

/--
A text spells the digits behind a point, or there is no point.
-/
inductive SpellsFraction : List Char → List Char → Prop
  | absent : SpellsFraction [] []
  | present {ds : List Char} (h : IsDigits ds) : SpellsFraction ('.' :: ds) ds

/--
A text spells a signed exponent, or there is none.
-/
inductive SpellsExponent : List Char → Option (Bool × List Char) → Prop
  | absent : SpellsExponent [] none
  | minus {e : Char} {ds : List Char} (he : e = 'e' ∨ e = 'E') (h : IsDigits ds) :
    SpellsExponent (e :: '-' :: ds) (some (true, ds))
  | plus {e : Char} {ds : List Char} (he : e = 'e' ∨ e = 'E') (h : IsDigits ds) :
    SpellsExponent (e :: '+' :: ds) (some (false, ds))
  | bare {e : Char} {ds : List Char} (he : e = 'e' ∨ e = 'E') (h : IsDigits ds) :
    SpellsExponent (e :: ds) (some (false, ds))

/--
A text spells a number. A zero in front of the point has no other digit behind it.
-/
structure Spells (form : List Char) (n : Numeral) : Prop where
  whole : IsDigits n.whole
  zero : n.whole.head? = some '0' → n.whole.length = 1
  split : ∃ fraction exponent, form = (if n.negative then ['-'] else []) ++ n.whole ++ fraction
    ++ exponent ∧ SpellsFraction fraction n.fraction ∧ SpellsExponent exponent n.exponent

/--
The characters do not go on with digits.
-/
def NoDigit (rest : List Char) : Prop :=
  ∀ c ∈ rest.head?, c.isDigit = false

/--
A number in front of the characters does not go on with them.
-/
structure Ends (rest : List Char) : Prop where
  digit : NoDigit rest
  point : rest.head? ≠ some '.'
  exponent : ∀ e ∈ rest.head?, ¬ (e = 'e' ∨ e = 'E')

variable {s form rest ds : List Char} {n : Numeral} {e : Option (Bool × List Char)}

theorem takeWhile_isDigit (h : ∀ d ∈ ds, d.isDigit = true) (hrest : NoDigit rest) :
    (ds ++ rest).takeWhile Char.isDigit = ds ∧ (ds ++ rest).dropWhile Char.isDigit = rest := by
  rw [List.takeWhile_append_of_pos h, List.dropWhile_append_of_pos h]
  cases rest with
  | nil => simp
  | cons c rest =>
    have hc : c.isDigit = false := hrest c rfl
    simp [hc]

theorem noDigit_dropWhile (s : List Char) : NoDigit (s.dropWhile Char.isDigit) := by
  intro c hc
  have hhead := List.head?_dropWhile_not Char.isDigit s
  rw [hc] at hhead
  simpa using hhead

theorem digits_eq_ok_iff :
    scan.digits s = .ok (ds, rest) ↔ IsDigits ds ∧ s = ds ++ rest ∧ NoDigit rest := by
  constructor
  · intro h
    unfold scan.digits at h
    split at h
    · contradiction
    · next c s =>
      split at h
      · next hc =>
        cases h
        refine ⟨⟨?_, ?_⟩, List.takeWhile_append_dropWhile.symm, noDigit_dropWhile _⟩
        · simp [hc]
        · intro d hd
          exact List.all_eq_true.1 List.all_takeWhile d hd
      · contradiction
  · rintro ⟨⟨hne, hdigits⟩, rfl, hrest⟩
    obtain ⟨htake, hdrop⟩ := takeWhile_isDigit hdigits hrest
    unfold scan.digits
    cases ds with
    | nil => contradiction
    | cons d ds =>
      have hd : d.isDigit = true := hdigits d List.mem_cons_self
      simp only [List.cons_append, hd, ↓reduceIte]
      rw [← List.cons_append, htake, hdrop]

theorem integer_eq_ok_iff :
    scan.integer s = .ok (ds, rest)
      ↔
    (IsDigits ds ∧ s = ds ++ rest ∧ NoDigit rest) ∧ (ds.head? = some '0' → ds.length = 1) := by
  unfold scan.integer
  rw [bind_eq_ok_iff]
  constructor
  · rintro ⟨⟨ds', rest'⟩, hread, h⟩
    simp only at h
    split at h
    · contradiction
    · next hzero =>
      cases h
      have hdigits := digits_eq_ok_iff.1 hread
      have hpos := List.length_pos_iff.2 hdigits.1.1
      refine ⟨hdigits, ?_⟩
      intro hhead
      simp only [hhead, decide_true, Bool.true_and, decide_eq_true_eq] at hzero
      omega
  · rintro ⟨hdigits, hzero⟩
    refine ⟨(ds, rest), digits_eq_ok_iff.2 hdigits, if_neg ?_⟩
    simp only [Bool.and_eq_true, decide_eq_true_eq, not_and]
    intro hhead
    rw [hzero hhead]
    omega

theorem spellsFraction_of_scan (h : scan.fraction s = .ok (ds, rest)) :
    ∃ form, s = form ++ rest ∧ SpellsFraction form ds := by
  unfold scan.fraction at h
  split at h
  · obtain ⟨hdigits, rfl, -⟩ := digits_eq_ok_iff.1 h
    exact ⟨'.' :: ds, rfl, .present hdigits⟩
  · cases h
    exact ⟨[], rfl, .absent⟩

theorem SpellsFraction.scan (h : SpellsFraction form ds) (hdigit : NoDigit rest)
    (hpoint : rest.head? ≠ some '.') : scan.fraction (form ++ rest) = .ok (ds, rest) := by
  cases h with
  | absent =>
    unfold scan.fraction
    rw [List.nil_append]
    split
    · simp at hpoint
    · rfl
  | present h => exact digits_eq_ok_iff.2 ⟨h, rfl, hdigit⟩

theorem spellsExponent_of_scan (h : scan.exponent s = .ok (e, rest)) :
    ∃ form, s = form ++ rest ∧ SpellsExponent form e := by
  unfold scan.exponent at h
  split at h
  · next c s =>
    split at h
    · next hc =>
      have hc : c = 'e' ∨ c = 'E' := by simpa using hc
      split at h
      all_goals
        obtain ⟨⟨ds, rest'⟩, hread, h⟩ := map_eq_ok_iff.1 h
        cases h
        obtain ⟨hdigits, rfl, -⟩ := digits_eq_ok_iff.1 hread
      · exact ⟨c :: '-' :: ds, rfl, .minus hc hdigits⟩
      · exact ⟨c :: '+' :: ds, rfl, .plus hc hdigits⟩
      · exact ⟨c :: ds, rfl, .bare hc hdigits⟩
    · cases h
      exact ⟨[], rfl, .absent⟩
  · cases h
    exact ⟨[], rfl, .absent⟩

theorem SpellsExponent.scan (h : SpellsExponent form e) (hends : Ends rest) :
    scan.exponent (form ++ rest) = .ok (e, rest) := by
  have hdigits : ∀ ds : List Char, IsDigits ds → scan.digits (ds ++ rest) = .ok (ds, rest) := by
    intro ds h
    exact digits_eq_ok_iff.2 ⟨h, rfl, hends.digit⟩
  cases h with
  | absent =>
    unfold scan.exponent
    cases rest with
    | nil => rfl
    | cons c rest =>
      have hc := hends.exponent c rfl
      simp only [List.nil_append]
      rw [if_neg (by simpa using hc)]
  | minus he h =>
    simp only [List.cons_append, scan.exponent]
    rw [if_pos (by simpa using he)]
    exact map_eq_ok_iff.2 ⟨_, hdigits _ h, rfl⟩
  | plus he h =>
    simp only [List.cons_append, scan.exponent]
    rw [if_pos (by simpa using he)]
    exact map_eq_ok_iff.2 ⟨_, hdigits _ h, rfl⟩
  | @bare e ds he h =>
    simp only [List.cons_append, scan.exponent]
    rw [if_pos (by simpa using he)]
    obtain ⟨d, ds', rfl⟩ := List.exists_cons_of_ne_nil h.1
    have hd : d.isDigit = true := h.2 d List.mem_cons_self
    split
    · next heq =>
      cases heq
      contradiction
    · next heq =>
      cases heq
      contradiction
    · exact map_eq_ok_iff.2 ⟨_, hdigits _ h, rfl⟩

theorem scan_sign (s : List Char) :
    s = (if (scan.sign s).1 then ['-'] else []) ++ (scan.sign s).2 := by
  unfold scan.sign
  split <;> rfl

theorem spells_of_scan (h : scan s = .ok (n, rest)) : ∃ form, s = form ++ rest ∧ Spells form n := by
  simp only [scan, bind_eq_ok_iff, Prod.exists] at h
  obtain ⟨whole, s₁, hwhole, fraction, s₂, hscan, exponent, s₃, hscan', h⟩ := h
  cases h
  obtain ⟨⟨hdigits, hrest, -⟩, hzero⟩ := integer_eq_ok_iff.1 hwhole
  obtain ⟨fractionForm, rfl, hfraction⟩ := spellsFraction_of_scan hscan
  obtain ⟨exponentForm, rfl, hexponent⟩ := spellsExponent_of_scan hscan'
  refine ⟨_, ?_, hdigits, hzero, _, _, rfl, hfraction, hexponent⟩
  conv => lhs; rw [scan_sign s, hrest]
  simp only [List.append_assoc]

theorem noDigit_cons {c : Char} (h : c.isDigit = false) : NoDigit (c :: rest) := by
  intro c' hc'
  cases hc'
  exact h

theorem SpellsExponent.noDigit (h : SpellsExponent form e) (hends : Ends rest) :
    NoDigit (form ++ rest) ∧ (form ++ rest).head? ≠ some '.' := by
  cases h with
  | absent => exact ⟨hends.digit, hends.point⟩
  | minus he | plus he | bare he =>
    rcases he with rfl | rfl <;> exact ⟨noDigit_cons (by decide), by simp⟩

theorem SpellsFraction.noDigit (h : SpellsFraction form ds) (hdigit : NoDigit rest) :
    NoDigit (form ++ rest) := by
  cases h with
  | absent => exact hdigit
  | present h => exact noDigit_cons (by decide)

theorem scan_sign_append (negative : Bool) (h : IsDigits ds) :
    scan.sign ((if negative then ['-'] else []) ++ (ds ++ rest)) = (negative, ds ++ rest) := by
  obtain ⟨d, ds, rfl⟩ := List.exists_cons_of_ne_nil h.1
  have hd : d.isDigit = true := h.2 d List.mem_cons_self
  cases negative with
  | true => rfl
  | false =>
    unfold scan.sign
    split
    · next heq =>
      cases heq
      contradiction
    · rfl

theorem Spells.scan (h : Spells form n) (hends : Ends rest) :
    scan (form ++ rest) = .ok (n, rest) := by
  obtain ⟨hdigits, hzero, fraction, exponent, rfl, hfraction, hexponent⟩ := h
  obtain ⟨hdigit, hpoint⟩ := hexponent.noDigit hends
  have hwhole := integer_eq_ok_iff.2 ⟨⟨hdigits, rfl, hfraction.noDigit hdigit⟩, hzero⟩
  simp only [Numeral.scan, List.append_assoc, scan_sign_append _ hdigits, hwhole, ok_bind,
    hfraction.scan hdigit hpoint, hexponent.scan hends]
  rfl

end Numeral
end Json
end LuaCodex
