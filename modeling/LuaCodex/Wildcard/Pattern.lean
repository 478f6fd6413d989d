import LuaCodex.Text.Cut

/-!
This module contains the patterns that name several files at once, and the matching of a single name
against a pattern without slashes. Case counts, and wildcards match dots in front of names.
-/

namespace LuaCodex
namespace Wildcard

/--
A member of a character class.
-/
inductive ClassItem where
  | single (c : Char)
  | range (first last : Char)
deriving DecidableEq, Repr

/--
Decide whether a character belongs to a member of a class.
-/
def ClassItem.covers (c : Char) : ClassItem → Bool
  | single d => c = d
  | range first last => first ≤ c && c ≤ last

/--
A part of a pattern.
-/
inductive Token where
  | char (c : Char)
  /-- Any single character. -/
  | anyChar
  /-- Any number of characters. -/
  | anySequence
  /-- Any number of directories. -/
  | anyDepth
  /-- A character of a class. -/
  | within (items : List ClassItem)
  /-- A character outside of a class. -/
  | except (items : List ClassItem)
deriving DecidableEq, Repr

/--
The reason for which a text is not a pattern.
-/
inductive Defect where
  | tooManyStars
  | partOfName
  | badClass
deriving DecidableEq, Repr

/--
A defect and the position at which it is noticed.
-/
structure PatternError where
  position : Nat
  defect : Defect
deriving DecidableEq, Repr

/--
The description of an error.
-/
def PatternError.message (e : PatternError) : String :=
  "Pattern syntax error near position " ++ toString e.position ++ ": " ++
    match e.defect with
    | .tooManyStars => "wildcards are either regular `*` or recursive `**`"
    | .partOfName => "recursive wildcards must form a single path component"
    | .badClass => "invalid range pattern"

/--
The members of a class from the text between its brackets.
-/
def classItems : List Char → List ClassItem
  | first :: '-' :: last :: s => .range first last :: classItems s
  | c :: s => .single c :: classItems s
  | [] => []

/--
Read a class behind its opening bracket. The first character of a class can be a closing bracket.
-/
def class? : List Char → Option (Token × List Char)
  | '!' :: c :: s =>
    (Text.cutAt? ']' s).map fun (front, back) => (.except (classItems (c :: front)), back)
  | ['!'] => none
  | c :: s => (Text.cutAt? ']' s).map fun (front, back) => (.within (classItems (c :: front)), back)
  | [] => none

/--
Read a pattern.
-/
def tokens (s : List Char) : Except PatternError (List Token) :=
  go s.length 0 none [] s
where
  /--
  Go on at a position. The character before it is known, and `fuel` bounds the number of steps.
  -/
  go : Nat → Nat → Option Char → List Token → List Char → Except PatternError (List Token)
    | _, _, _, found, [] => .ok found
    | 0, _, _, found, _ => .ok found
    | fuel + 1, position, before, found, c :: s =>
      if c = '?' then
        go fuel (position + 1) (some c) (found ++ [.anyChar]) s
      else if c = '[' then
        match class? s with
        | some (token, rest) =>
          go fuel (position + 1 + (s.length - rest.length)) (some ']') (found ++ [token]) rest
        | none => .error ⟨position, .badClass⟩
      else if c = '*' then
        let stars := (s.takeWhile (· = '*')).length + 1
        let rest := s.dropWhile (· = '*')
        if 2 < stars then
          .error ⟨position + 2, .tooManyStars⟩
        else if stars = 1 then
          go fuel (position + 1) (some '*') (found ++ [.anySequence]) rest
        else if before.all (· = '/') then
          match rest with
          | [] => .ok (found ++ [.anyDepth])
          | d :: rest =>
            if d = '/' then
              go fuel (position + 3) (some '/') (found ++ [.anyDepth]) rest
            else
              .error ⟨position + 2, .partOfName⟩
        else
          .error ⟨position - 1, .partOfName⟩
      else
        go fuel (position + 1) (some c) (found ++ [.char c]) s

/--
Decide whether a token stands for a sequence of characters.
-/
def Token.isSequence : Token → Bool
  | anySequence | anyDepth => true
  | _ => false

/--
Decide whether a token that stands for one character stands for the given one.
-/
def Token.covers (d : Char) : Token → Bool
  | char c => c = d
  | anyChar => true
  | within items => items.any (·.covers d)
  | except items => !items.any (·.covers d)
  | anySequence | anyDepth => false

/--
A name that consists of parts for which the tokens of a pattern stand.
-/
inductive Matches : List Token → List Char → Prop where
  | nil : Matches [] []
  | one {token : Token} {tokens : List Token} {c : Char} {s : List Char} :
      token.covers c = true → Matches tokens s → Matches (token :: tokens) (c :: s)
  | sequence {token : Token} {tokens : List Token} {part s : List Char} :
      token.isSequence = true → Matches tokens s → Matches (token :: tokens) (part ++ s)

/--
The ends of a text, the longest first.
-/
def suffixes : List Char → List (List Char)
  | [] => [[]]
  | c :: s => (c :: s) :: suffixes s

/--
What can be left of a name behind a token, given what can be left of it in front of the token. The
longest possibility comes first and the others are ends of it, so behind a token for a sequence all
ends of the first one are left.
-/
def advance (rests : List (List Char)) (token : Token) : List (List Char) :=
  if token.isSequence then
    rests.head?.elim [] suffixes
  else
    rests.filterMap (after? token)
where
  /--
  What is left behind a token that stands for one character.
  -/
  after? (token : Token) : List Char → Option (List Char)
    | [] => none
    | c :: s => if token.covers c then some s else none

/--
Decide whether a name matches a pattern. The number of steps is at most the product of their
lengths.
-/
def isMatch (tokens : List Token) (s : List Char) : Bool :=
  (tokens.foldl advance [s]).any (·.isEmpty)

theorem mem_suffixes {x s : List Char} : x ∈ suffixes s ↔ x <:+ s := by
  induction s with
  | nil => simp [suffixes]
  | cons c s ih => simp [suffixes, ih, List.suffix_cons_iff]

theorem pairwise_suffixes (s : List Char) : (suffixes s).Pairwise fun a b => b <:+ a := by
  induction s with
  | nil => simp [suffixes]
  | cons c s ih =>
    refine List.pairwise_cons.2 ⟨fun x hx => ?_, ih⟩
    exact (mem_suffixes.1 hx).trans (List.suffix_cons c s)

theorem pairwise_advance {rests : List (List Char)} (h : rests.Pairwise fun a b => b <:+ a)
    (token : Token) : (advance rests token).Pairwise fun a b => b <:+ a := by
  unfold advance
  split
  · cases rests with
    | nil => exact .nil
    | cons x rests => exact pairwise_suffixes x
  · refine h.filterMap _ fun a b hab x hx y hy => ?_
    cases a with
    | nil => simp [advance.after?] at hx
    | cons c a =>
      cases b with
      | nil => simp [advance.after?] at hy
      | cons d b =>
        simp only [advance.after?, Option.ite_none_right_eq_some, Option.some.injEq] at hx hy
        obtain ⟨-, rfl⟩ := hx
        obtain ⟨-, rfl⟩ := hy
        rcases List.suffix_cons_iff.1 hab with heq | hsuffix
        · cases heq
          exact List.suffix_refl _
        · exact (List.suffix_cons d b).trans hsuffix

theorem nil_mem_foldl_advance {tokens : List Token} {rests : List (List Char)}
    (h : rests.Pairwise fun a b => b <:+ a) :
    [] ∈ tokens.foldl advance rests ↔ ∃ s ∈ rests, Matches tokens s := by
  induction tokens generalizing rests with
  | nil =>
    constructor
    · exact fun hmem => ⟨[], hmem, .nil⟩
    · rintro ⟨s, hs, hmatch⟩
      cases hmatch
      exact hs
  | cons token tokens ih =>
    rw [List.foldl_cons, ih (pairwise_advance h token)]
    constructor
    · rintro ⟨s, hs, hmatch⟩
      unfold advance at hs
      split at hs
      next hsequence =>
        cases rests with
        | nil => cases hs
        | cons x rests =>
          obtain ⟨part, rfl⟩ := mem_suffixes.1 hs
          exact ⟨_, List.mem_cons_self, .sequence hsequence hmatch⟩
      next =>
        obtain ⟨r, hr, hafter⟩ := List.mem_filterMap.1 hs
        cases r with
        | nil => simp [advance.after?] at hafter
        | cons c r =>
          simp only [advance.after?, Option.ite_none_right_eq_some, Option.some.injEq] at hafter
          obtain ⟨hcovers, rfl⟩ := hafter
          exact ⟨_, hr, .one hcovers hmatch⟩
    · rintro ⟨s, hs, hmatch⟩
      cases hmatch with
      | one hcovers hmatch =>
        next c s =>
        refine ⟨s, ?_, hmatch⟩
        have hone : token.isSequence = false := by
          cases token <;> simp_all [Token.covers, Token.isSequence]
        simp only [advance, hone]
        exact List.mem_filterMap.2 ⟨_, hs, by simp [advance.after?, hcovers]⟩
      | sequence hsequence hmatch =>
        next part s =>
        refine ⟨s, ?_, hmatch⟩
        cases rests with
        | nil => cases hs
        | cons x rests =>
          have hx : part ++ s <:+ x := by
            rcases List.mem_cons.1 hs with rfl | hmem
            · exact List.suffix_refl _
            · exact (List.pairwise_cons.1 h).1 _ hmem
          simp only [advance, hsequence]
          exact mem_suffixes.2 ((List.suffix_append part s).trans hx)

theorem isMatch_iff {tokens : List Token} {s : List Char} :
    isMatch tokens s = true ↔ Matches tokens s := by
  have h := @nil_mem_foldl_advance tokens [s] (List.pairwise_singleton _ _)
  simp only [List.mem_singleton, exists_eq_left] at h
  rw [← h]
  simp [isMatch]

/--
The name that a pattern stands for if it has no wildcards.
-/
def literal? (tokens : List Token) : Option (List Char) :=
  tokens.mapM fun
    | .char c => some c
    | _ => none

end Wildcard
end LuaCodex
