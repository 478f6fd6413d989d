import LuaCodex.Proofs.FileTree.Write

/-!
This module contains what is found in a file system after directories have been made, whether all of
them could be made or not: every entry is still there, and all new ones are directories.
-/

namespace LuaCodex
namespace FileTree

/--
The entries of a file system are still there in another one, where only directories are new.
-/
def AddsDirectories (t t' : FileTree) : Prop :=
  ∀ location, t'.node? location = t.node? location
    ∨ t.node? location = none ∧ t'.node? location = some .directory

/--
Two file systems have the same file at a location, or none.
-/
def SameFileAt (t t' : FileTree) (location : Location) : Prop :=
  ∀ content, t'.node? location = some (.file content) ↔ t.node? location = some (.file content)

variable {t t' t'' : FileTree} {location other : Location} {p : Path}

theorem AddsDirectories.refl (t : FileTree) : AddsDirectories t t := by
  intro location
  exact Or.inl rfl

theorem AddsDirectories.trans (h : AddsDirectories t t') (h' : AddsDirectories t' t'') :
    AddsDirectories t t'' := by
  intro location
  rcases h location with heq | ⟨hnone, hdirectory⟩
  · rw [← heq]
    exact h' location
  · -- The new directory is an entry that the second step leaves alone.
    rcases h' location with heq' | ⟨hnone', -⟩
    · exact Or.inr ⟨hnone, heq'.trans hdirectory⟩
    · rw [hnone'] at hdirectory
      contradiction

theorem AddsDirectories.sameFileAt (h : AddsDirectories t t') (location : Location) :
    SameFileAt t t' location := by
  intro content
  rcases h location with heq | ⟨hnone, hdirectory⟩
  · rw [heq]
  · simp [hnone, hdirectory]

theorem addsDirectories_put (h : t.node? location = none) :
    AddsDirectories t (t.put location .directory) := by
  intro other
  by_cases heq : other = location
  · subst heq
    refine Or.inr ⟨h, node?_put_self ?_⟩
    rintro rfl
    simp at h
  · exact Or.inl (node?_put_of_ne heq)

theorem exists_put_of_makeDirectory (h : t.makeDirectory p = .ok t') :
    ∃ location, t.node? location = none ∧ t' = t.put location .directory := by
  unfold makeDirectory at h
  by_cases hempty : p.text = ""
  · simp [hempty, bind, Except.bind] at h
  · cases hfollow : t.follow (t.origin p) (splitLast p).1 with
    | error e => simp [hempty, hfollow, bind, Except.bind] at h
    | ok r =>
      obtain ⟨here, node⟩ := r
      cases node with
      | file => simp [hempty, hfollow, bind, Except.bind] at h
      | directory =>
        simp only [hempty, hfollow, bind, Except.bind, pure, Except.pure, ↓reduceIte] at h
        split at h
        · contradiction
        · next hnew =>
          cases h
          rw [Bool.or_eq_true, not_or, Option.not_isSome_iff_eq_none] at hnew
          exact ⟨_, hnew.2, rfl⟩

theorem addsDirectories_settle (t : FileTree) (p : Path) :
    AddsDirectories t (makeDirectories.settle t p).1 := by
  unfold makeDirectories.settle
  cases hmake : t.makeDirectory p with
  | ok t' =>
    obtain ⟨location, hnone, rfl⟩ := exists_put_of_makeDirectory hmake
    exact addsDirectories_put hnone
  | error e => exact AddsDirectories.refl t

theorem addsDirectories_go (fuel : Nat) (t : FileTree) (p : Path) :
    AddsDirectories t (makeDirectories.go fuel t p).1 := by
  induction fuel generalizing t p with
  | zero => exact AddsDirectories.refl t
  | succ fuel ih =>
    have hsettle := addsDirectories_settle t p
    unfold makeDirectories.go
    split
    · exact AddsDirectories.refl t
    · split
      · next t₁ heq =>
        rw [heq] at hsettle
        have hparent := ih t₁ (p.parent?.getD ⟨""⟩)
        split
        · next t₂ heq' =>
          -- The parents are there now, so the directory itself is tried again.
          rw [heq'] at hparent
          exact (hsettle.trans hparent).trans (addsDirectories_settle t₂ p)
        · exact hsettle.trans hparent
      · exact hsettle

theorem addsDirectories_makeDirectories (t : FileTree) (p : Path) :
    AddsDirectories t (t.makeDirectories p).1 := by
  apply addsDirectories_go

end FileTree
end LuaCodex
