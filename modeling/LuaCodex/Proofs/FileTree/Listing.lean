import Mathlib.Data.List.Perm.Basic
import LuaCodex.Proofs.FileTree.Write

/-!
This module contains file systems that differ in nothing but the order in which directories are
listed. The main statements are that a path leads to the same place in both of them, and that a file
that is written or a directory that is made leaves two file systems of this kind again.
-/

namespace LuaCodex
namespace FileTree

/--
Two file systems have the same entry at each location and the same refusal to read it, but the
entries can be listed in another order.
-/
structure Relisted (t t' : FileTree) : Prop where
  workdir : t.workdir = t'.workdir
  entries : t.entries.Perm t'.entries
  node : ∀ location, t.node? location = t'.node? location
  refusal : ∀ location, t.refusal? location = t'.refusal? location

/--
Two attempts have failed alike, or they have succeeded with results that are related.
-/
inductive Alike {α : Type} (related : α → α → Prop) :
    Except AccessError α → Except AccessError α → Prop
  | error (e : AccessError) : Alike related (.error e) (.error e)
  | ok {a b : α} (h : related a b) : Alike related (.ok a) (.ok b)

variable {t t' : FileTree} {p : Path}

theorem Alike.perm_getD {α : Type} {x y : Except AccessError (List α)} (h : Alike List.Perm x y) :
    (x.toOption.getD []).Perm (y.toOption.getD []) := by
  cases h with
  | error e => exact List.Perm.refl _
  | ok h => exact h

namespace Relisted

theorem symm (h : Relisted t t') : Relisted t' t := by
  exact ⟨h.workdir.symm, h.entries.symm, fun location => (h.node location).symm,
    fun location => (h.refusal location).symm⟩

theorem follow (h : Relisted t t') (here : Location) (segments : List (List Char)) :
    t.follow here segments = t'.follow here segments := by
  induction segments generalizing here with
  | nil => simp only [FileTree.follow, h.node]
  | cons segment segments ih => simp only [FileTree.follow, h.node, ih]

theorem origin (h : Relisted t t') (p : Path) : t.origin p = t'.origin p := by
  simp only [FileTree.origin, h.workdir]

theorem resolve (h : Relisted t t') (p : Path) : t.resolve p = t'.resolve p := by
  simp only [FileTree.resolve, h.origin, h.follow]

theorem isFile (h : Relisted t t') (p : Path) : t.isFile p = t'.isFile p := by
  simp only [FileTree.isFile, h.resolve]

theorem isDirectory (h : Relisted t t') (p : Path) : t.isDirectory p = t'.isDirectory p := by
  simp only [FileTree.isDirectory, h.resolve]

theorem leadsSomewhere (h : Relisted t t') (p : Path) :
    t.leadsSomewhere p = t'.leadsSomewhere p := by
  simp only [FileTree.leadsSomewhere, h.resolve]

theorem read (h : Relisted t t') (p : Path) : t.read p = t'.read p := by
  simp only [FileTree.read, h.resolve, h.refusal]

theorem list (h : Relisted t t') (p : Path) : Alike List.Perm (t.list p) (t'.list p) := by
  unfold FileTree.list
  rw [h.resolve]
  cases t'.resolve p with
  | error e => exact .error e
  | ok r =>
    obtain ⟨here, node⟩ := r
    simp only [bind, Except.bind, h.refusal]
    split
    · exact .error _
    · exact .error _
    · exact .ok (h.entries.filterMap _)

theorem names (h : Relisted t t') (p : Path) : (t.names p).Perm (t'.names p) := by
  exact (h.list p).perm_getD

theorem put (h : Relisted t t') (location : Location) (node : Node) :
    Relisted (t.put location node) (t'.put location node) := by
  refine ⟨h.workdir, (h.entries.filter _).append_right _, ?_, h.refusal⟩
  intro other
  by_cases heq : other = location
  · subst heq
    by_cases hroot : other = []
    · simp [hroot]
    · rw [node?_put_self hroot, node?_put_self hroot]
  · rw [node?_put_of_ne heq, node?_put_of_ne heq, h.node]

theorem write (h : Relisted t t') (p : Path) (content : List UInt8) :
    Alike Relisted (t.write p content) (t'.write p content) := by
  unfold FileTree.write
  rw [← h.resolve]
  split
  · exact .ok (h.put _ _)
  · exact .error _
  · next e _ =>
    simp only [← h.origin, ← h.follow, bind, Except.bind]
    split
    · exact .error _
    · split
      · split
        · exact .ok (h.put _ _)
        · exact .error _
      · exact .error _

theorem makeDirectory (h : Relisted t t') (p : Path) :
    Alike Relisted (t.makeDirectory p) (t'.makeDirectory p) := by
  unfold FileTree.makeDirectory
  by_cases hempty : p.text = ""
  · simp only [hempty, ↓reduceIte, bind, Except.bind]
    exact .error _
  · simp only [hempty, ↓reduceIte, ← h.origin, ← h.follow, ← h.node, bind, Except.bind, pure,
      Except.pure]
    split
    · exact .error _
    · split
      · exact .error _
      · split
        · exact .error _
        · exact .ok (h.put _ _)

theorem settle (h : Relisted t t') (p : Path) :
    Relisted (makeDirectories.settle t p).1 (makeDirectories.settle t' p).1
      ∧ (makeDirectories.settle t p).2 = (makeDirectories.settle t' p).2 := by
  have hmake := h.makeDirectory p
  unfold makeDirectories.settle
  generalize t.makeDirectory p = made at hmake
  generalize t'.makeDirectory p = made' at hmake
  cases hmake with
  | error e => exact ⟨h, by simp only [h.isDirectory]⟩
  | ok hmade => exact ⟨hmade, rfl⟩

theorem makeDirectories_go (h : Relisted t t') (fuel : Nat) (p : Path) :
    Relisted (makeDirectories.go fuel t p).1 (makeDirectories.go fuel t' p).1
      ∧ (makeDirectories.go fuel t p).2 = (makeDirectories.go fuel t' p).2 := by
  induction fuel generalizing t t' p with
  | zero => exact ⟨h, rfl⟩
  | succ fuel ih =>
    unfold makeDirectories.go
    by_cases hempty : p.components = []
    · simp only [hempty, ↓reduceIte]
      exact ⟨h, trivial⟩
    · simp only [hempty, ↓reduceIte]
      have hsettle := h.settle p
      rcases hsettled : makeDirectories.settle t p with ⟨t₁, e⟩
      rcases hsettled' : makeDirectories.settle t' p with ⟨t₁', e'⟩
      rw [hsettled, hsettled'] at hsettle
      obtain ⟨htree, rfl⟩ := hsettle
      by_cases hmissing : e = some .notFound
      · -- The parents are made on both sides, and then the directory is tried again.
        subst hmissing
        have hparent := ih htree (p.parent?.getD ⟨""⟩)
        rcases hmade : makeDirectories.go fuel t₁ (p.parent?.getD ⟨""⟩) with ⟨t₂, e⟩
        rcases hmade' : makeDirectories.go fuel t₁' (p.parent?.getD ⟨""⟩) with ⟨t₂', e'⟩
        rw [hmade, hmade'] at hparent
        obtain ⟨htree', rfl⟩ := hparent
        cases e with
        | none => simpa only [hmade, hmade'] using htree'.settle p
        | some e => simpa only [hmade, hmade'] using ⟨htree', trivial⟩
      · cases e with
        | none => exact ⟨htree, rfl⟩
        | some e =>
          cases e with
          | notFound => contradiction
          | _ => exact ⟨htree, rfl⟩

theorem makeDirectories (h : Relisted t t') (p : Path) :
    Relisted (t.makeDirectories p).1 (t'.makeDirectories p).1
      ∧ (t.makeDirectories p).2 = (t'.makeDirectories p).2 := by
  exact h.makeDirectories_go _ p

end Relisted
end FileTree
end LuaCodex
