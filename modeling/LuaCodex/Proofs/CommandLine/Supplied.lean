import LuaCodex.CommandLine.Run
import LuaCodex.Proofs.Json.Record
import LuaCodex.Proofs.Text.Encoded

/-!
This module contains the supplement that the options ask for: the built-in globals unless they are
left out, and what the globals file holds laid over them. The file has to be UTF-8 and a supplement.
-/

namespace LuaCodex
namespace CommandLine

open Json Text

/--
The supplement on which the one in the globals file is laid.
-/
def Options.base (o : Options) : Supplement :=
  if o.noGlobals then {} else Supplement.board

/--
A supplement is the one that the options ask for.
-/
inductive Supplies (o : Options) (tree : FileTree) : Supplement → Prop
  | base (hglobals : o.globals = none) : Supplies o tree o.base
  | overlay (path : Path) (text : String) (given : Supplement) (hglobals : o.globals = some path)
    (hread : tree.read path = .ok (encode text.toList))
    (hgiven : Supplement.ofJson text = .ok given) : Supplies o tree (o.base.overlay given)

variable {o : Options} {tree : FileTree} {given : Supplement}

theorem supplement_of_supplies (h : Supplies o tree given) : supplement o tree = .ok given := by
  unfold supplement
  cases h with
  | base hglobals =>
    rw [hglobals]
    rfl
  | overlay path text given hglobals hread hgiven =>
    have hdecode : decode? (encode text.toList) = some text.toList := decode?_eq_some_iff.2 rfl
    simp only [hglobals, bind_eq_ok_iff, mapError_eq_ok_iff]
    refine ⟨encode text.toList, hread, ?_⟩
    simp only [hdecode, bind_eq_ok_iff, mapError_eq_ok_iff, String.ofList_toList]
    exact ⟨given, hgiven, rfl⟩

theorem supplies_of_supplement (h : supplement o tree = .ok given) : Supplies o tree given := by
  unfold supplement at h
  cases hglobals : o.globals with
  | none =>
    simp only [hglobals, pure, Except.pure, Except.ok.injEq] at h
    rw [← h]
    exact .base hglobals
  | some path =>
    simp only [hglobals, bind_eq_ok_iff, mapError_eq_ok_iff] at h
    obtain ⟨bytes, hread, h⟩ := h
    cases hdecode : decode? bytes with
    | none => simp [hdecode] at h
    | some text =>
      obtain rfl := decode?_eq_some_iff.1 hdecode
      simp only [hdecode, bind_eq_ok_iff, mapError_eq_ok_iff] at h
      obtain ⟨user, huser, h⟩ := h
      rw [← Except.ok.inj h]
      refine .overlay path (String.ofList text) user hglobals ?_ huser
      rw [hread, String.toList_ofList]

/--
The supplement of a run is the one that the options ask for.
-/
theorem supplement_eq_ok_iff : supplement o tree = .ok given ↔ Supplies o tree given :=
  ⟨supplies_of_supplement, supplement_of_supplies⟩

end CommandLine
end LuaCodex
