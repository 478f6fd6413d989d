import LuaCodex.Json.Print
import LuaCodex.Proofs.Json.Written

/-!
This module contains what is printed for JSON values without numbers. The main statement is that it
is a written form of the value.
-/

namespace LuaCodex
namespace Json

/--
A value without numbers and faults whose strings stand for texts.
-/
inductive Plain : Json → Prop where
  | null : Plain .null
  | bool (b : Bool) : Plain (.bool b)
  | ofText (text : String) : Plain (.ofText text)
  | array (items : List Json) (h : ∀ item ∈ items, Plain item) : Plain (.array items)
  | ofMembers (members : List (String × Json)) (h : ∀ m ∈ members, Plain m.2) :
    Plain (.ofMembers members)

namespace Quoted

theorem hexDigit?_hexDigit {n : Nat} (h : n < 16) : hexDigit? (hexDigit n) = some n := by
  have hall : ∀ n, n < 16 → hexDigit? (hexDigit n) = some n := by decide
  exact hall n h

theorem ofCode_toNat {c : Char} (h : c.toNat < 0x20) : Piece.ofCode c.toNat = .char c := by
  have hsurrogate : (0xD800 ≤ c.toNat && c.toNat < 0xE000) = false := by
    simp
    omega
  simp only [Piece.ofCode, hsurrogate, Bool.false_eq_true, ↓reduceIte, Char.ofNat_toNat]

variable {s : List Char} {pieces : List Piece}

theorem spells_escapeCode {code : Nat} (hcode : code < 65536) (h : Spells s pieces) :
    Spells (escapeCode code ++ s) (.ofCode code :: pieces) := by
  refine .code [hexDigit (code / 4096 % 16), hexDigit (code / 256 % 16), hexDigit (code / 16 % 16),
    hexDigit (code % 16)] code rfl ?_ h
  simp only [hexValue?_cons, hexDigit?_hexDigit (Nat.mod_lt _ (show 0 < 16 by omega)),
    Option.bind_some]
  simp only [hexValue?, List.foldlM_nil, pure, Option.some_inj]
  omega

theorem spells_printPiece (c : Char) (h : Spells s pieces) :
    Spells (printPiece (.char c) ++ s) (.char c :: pieces) := by
  simp only [printPiece]
  split
  · next hc => exact .escape _ _ (by simp [unescape?, hc]) h
  split
  · next hc => exact .escape _ _ (by simp [unescape?, hc]) h
  split
  · next hc => exact .escape _ _ (by simp [unescape?, hc]) h
  split
  · next hc => exact .escape _ _ (by simp [unescape?, hc]) h
  split
  · next hc => exact .escape _ _ (by simp [unescape?, hc]) h
  split
  · next hc => exact .escape _ _ (by simp [unescape?, hc]) h
  split
  · next hc => exact .escape _ _ (by simp [unescape?, hc]) h
  split
  · next hc =>
    rw [← ofCode_toNat hc]
    exact spells_escapeCode (by omega) h
  · next hquote hslash _ _ _ _ _ hcontrol => exact .char c hquote hslash hcontrol h

theorem spells_printPieces (text : List Char) :
    Spells ((text.map Piece.char).flatMap printPiece) (text.map .char) := by
  induction text with
  | nil => exact .nil
  | cons c text ih =>
    rw [List.map_cons, List.flatMap_cons]
    exact spells_printPiece c ih

end Quoted

theorem isGap_newline (depth : Nat) : IsGap (newline depth) := by
  intro c hc
  rcases List.mem_cons.1 hc with rfl | hc
  · decide
  · rw [List.eq_of_mem_replicate hc]
    decide

theorem writtenItems_print {item : Json} {form gap : List Char} {items : List Json} {depth : Nat}
    (hfirst : Written item form) (h : ∀ item ∈ items, Written item (item.print depth))
    (hgap : IsGap gap) : WrittenItems (item :: items) (form ++ printItems depth items ++ gap) := by
  induction items generalizing item form with
  | nil =>
    simp only [printItems, List.append_nil]
    exact .single (hfirst.append_gap hgap)
  | cons next items ih =>
    rw [List.forall_mem_cons] at h
    have hrest := ih (h.1.gap_append (isGap_newline depth)) h.2
    simpa [printItems] using hrest.cons hfirst

theorem writtenKey_print (key : String) (depth : Nat) :
    WrittenKey (.ofText key) (newline depth ++ (Quoted.ofText key).print) := by
  exact .mk (isGap_newline depth) (Quoted.spells_printPieces key.toList) isGap_nil

theorem writtenMembers_print {key : Quoted} {value : Json} {keyForm form gap : List Char}
    {members : List (String × Json)} {depth : Nat} (hkey : WrittenKey key keyForm)
    (hfirst : Written value form) (h : ∀ m ∈ members, Written m.2 (m.2.print depth))
    (hgap : IsGap gap) :
    let quoted := members.map fun (key, value) => (Quoted.ofText key, value)
    WrittenMembers ((key, value) :: quoted)
      (keyForm ++ ':' :: form ++ printMembers depth quoted ++ gap) := by
  intro quoted
  induction members generalizing key value keyForm form with
  | nil =>
    simp only [quoted, List.map_nil, printMembers, List.append_nil]
    simpa using WrittenMembers.single hkey (hfirst.append_gap hgap)
  | cons m members ih =>
    rw [List.forall_mem_cons] at h
    have hrest := ih (writtenKey_print m.1 depth) (h.1.before (c := ' ') rfl) h.2
    simpa [quoted, printMembers] using hrest.cons hkey hfirst

theorem Plain.written {v : Json} (h : v.Plain) (depth : Nat) : Written v (v.print depth) := by
  induction h generalizing depth with
  | null => exact .null
  | bool b => cases b <;> exact .bool _
  | ofText text => exact .string (Quoted.spells_printPieces text.toList)
  | array items _ ih =>
    cases items with
    | nil => exact .emptyArray isGap_nil
    | cons item items =>
      rw [List.forall_mem_cons] at ih
      have hitems := writtenItems_print (ih.1 (depth + 1))
        (fun item hitem => ih.2 item hitem (depth + 1)) (isGap_newline depth)
      simpa [print] using (hitems.gap_append (isGap_newline (depth + 1))).written
  | ofMembers members _ ih =>
    cases members with
    | nil => exact .emptyObject isGap_nil
    | cons m members =>
      rw [List.forall_mem_cons] at ih
      have hmembers := writtenMembers_print (writtenKey_print m.1 (depth + 1))
        ((ih.1 (depth + 1)).before (c := ' ') rfl) (fun m hm => ih.2 m hm (depth + 1))
        (isGap_newline depth)
      simpa [print, Json.ofMembers] using hmembers.written

end Json
end LuaCodex
