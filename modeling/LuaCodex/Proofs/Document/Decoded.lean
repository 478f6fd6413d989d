import LuaCodex.Extraction
import LuaCodex.Proofs.Text.Utf8

/-!
This module contains what decoding means for the document of a text. The main statement is that an
invalid part of the bytes never reaches beyond its own line: bytes can be divided into lines before
they are decoded.
-/

namespace LuaCodex

open Text

theorem Text.toList_toUTF8 (text : String) : text.toUTF8.data.toList = encode text.toList := by
  obtain ⟨s, rfl⟩ : ∃ s, text = String.ofList s := ⟨text.toList, String.ofList_toList.symm⟩
  rw [String.toUTF8_eq_toByteArray, String.toByteArray_ofList, String.toList_ofList]
  exact List.toList_data_toByteArray

namespace Document

/--
The document of decoded bytes and the notices on it come from the lines of the bytes, each of them
decoded by itself. If bytes differ in one line only, the decoded lines differ at most in this one,
and the decoded lines of valid UTF-8 are those of the text that it encodes.
-/
theorem ofText_decodeLossy (options : Extraction.Options) (bytes : List UInt8) :
    ofText options (decodeLossy bytes)
        = Extraction.ofLines options ((bytes.splitOn 10).map decodeLossy)
      ∧ lines (decodeLossy bytes) = (bytes.splitOn 10).map decodeLossy
      ∧ (∀ (bytes' : List UInt8) (i : Nat),
        (bytes.splitOn 10).length = (bytes'.splitOn 10).length →
        (∀ j, j ≠ i → (bytes.splitOn 10)[j]? = (bytes'.splitOn 10)[j]?) →
        (lines (decodeLossy bytes)).length = (lines (decodeLossy bytes')).length
          ∧ ∀ j, j ≠ i → (lines (decodeLossy bytes))[j]? = (lines (decodeLossy bytes'))[j]?)
      ∧ ∀ text : String, bytes = text.toUTF8.data.toList →
        lines (decodeLossy bytes) = lines text.toList := by
  refine ⟨?_, lines_decodeLossy bytes, ?_, ?_⟩
  · rw [ofText, lines_decodeLossy]
  · intro bytes' i hlength hagree
    rw [lines_decodeLossy, lines_decodeLossy, List.length_map, List.length_map]
    refine ⟨hlength, ?_⟩
    intro j hj
    rw [List.getElem?_map, List.getElem?_map, hagree j hj]
  · rintro text rfl
    rw [toList_toUTF8, decodeLossy_encode]

theorem ofText_decodeLossy_behind_a_cut_character :
    let bytes : List UInt8 := "---@class A\n-- ".toUTF8.data.toList ++ [0xE2, 0x82]
      ++ "\nself.b = Event:new()\n".toUTF8.data.toList
    let text := "---@class A\n-- €\nself.b = Event:new()\n"
    let lines' := lines (decodeLossy bytes)
    (bytes.splitOn 10).length = (text.toUTF8.data.toList.splitOn 10).length
      ∧ (∀ j, j ≠ 1 → (bytes.splitOn 10)[j]? = (text.toUTF8.data.toList.splitOn 10)[j]?)
      ∧ lines'[1]? = some "-- �".toList
      ∧ (∀ j, j ≠ 1 → lines'[j]? = (lines text.toList)[j]?) := by
  intro bytes text lines'
  have hset : text.toUTF8.data.toList.splitOn 10
      = (bytes.splitOn 10).set 1 "-- €".toUTF8.data.toList := by
    decide
  have hlength : (bytes.splitOn 10).length = (text.toUTF8.data.toList.splitOn 10).length := by
    rw [hset, List.length_set]
  have hagree : ∀ j, j ≠ 1 →
      (bytes.splitOn 10)[j]? = (text.toUTF8.data.toList.splitOn 10)[j]? := by
    intro j hj
    rw [hset, List.getElem?_set_ne hj.symm]
  have h := ofText_decodeLossy {} bytes
  have htext := (ofText_decodeLossy {} text.toUTF8.data.toList).2.2.2 text rfl
  refine ⟨hlength, hagree, by decide, ?_⟩
  rw [← htext]
  exact (h.2.2.1 text.toUTF8.data.toList 1 hlength hagree).2

end Document
end LuaCodex
