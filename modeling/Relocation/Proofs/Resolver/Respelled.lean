import Relocation.Proofs.FileTree.Respelled
import Relocation.Proofs.Resolver.Search
import Relocation.Proofs.Resolver.Sequence

/-!
# The search in directories that are spelled in several ways

Whether something is found for a specifier in a directory of packages does not depend on how the
directory's path is spelled: what is tried for it is spelled as many ways, and leads to the same.
Only what is found, and an error, is spelled as the directory is.
-/

namespace Relocation.Resolver

open Relocation.Path (Respelled)

variable {r : Resolver} {t : FileTree} {s : String} {d d' p q m m' : Path}

/-! ### Files -/

private theorem firstExtended_of_same (hp : p.isAbsolute) (hq : q.isAbsolute) (h : p.same q)
    {name : String} {es : List String} (hnone : firstExtended t name p es = none) :
    firstExtended t name q es = none := by
  induction es generalizing p q with
  | nil => rfl
  | cons e es ih =>
    have hext : Respelled (withExtension p name e) (withExtension q name e) :=
      Path.respelled_withFileName hp hq h _
    simp only [firstExtended] at hnone ⊢
    rw [← FileTree.isFile_of_respelled hext]
    split at hnone
    · cases hnone
    · next hf =>
      rw [if_neg hf]
      exact ih hext.isAbsolute_left hext.isAbsolute_right hext.same hnone

private theorem asFile_of_respelled (h : Respelled p q) (hnone : r.asFile t p = none) :
    r.asFile t q = none := by
  unfold asFile at hnone ⊢
  rw [← FileTree.isFile_of_respelled h,
    ← Path.fileName?_of_same h.isAbsolute_left h.isAbsolute_right h.same]
  split at hnone
  · cases hnone
  · next hf =>
    rw [if_neg hf]
    split at hnone
    · exact firstExtended_of_same h.isAbsolute_left h.isAbsolute_right h.same hnone
    · rfl

private theorem indexOf_of_respelled (h : Respelled p q) (hnone : r.indexOf t p = none) :
    r.indexOf t q = none := by
  unfold indexOf at hnone ⊢
  rw [List.find?_map, Option.map_eq_none_iff, List.find?_eq_none] at hnone ⊢
  intro e he
  have hindex := Path.respelled_join h.isAbsolute_left h.isAbsolute_right h.same
    (.ofString ("index." ++ e))
  rw [Function.comp_apply, ← FileTree.isFile_of_respelled hindex]
  exact hnone e he

/-! ### Manifests -/

private theorem read_of_respelled (h : Respelled m m') {manifest : Manifest}
    (hm : Manifest.read t m = .ok manifest) : Manifest.read t m' = .ok manifest := by
  obtain ⟨content, hread⟩ := FileTree.isFile_iff_read.mp (isFile_of_manifest hm)
  unfold Manifest.read at hm ⊢
  rw [hread] at hm
  rw [FileTree.read_of_respelled h hread]
  exact mapError_eq_ok_iff.mpr (mapError_eq_ok_iff.mp hm)

/-- Entries are cleaned, which leaves nothing of the spelling. -/
theorem entryOf_of_respelled (h : Respelled p q) (hm : Respelled m m')
    (hnone : r.entryOf t p m = .ok none) : r.entryOf t q m' = .ok none := by
  obtain ⟨manifest, hread, hentry⟩ := bind_eq_ok_iff.mp hnone
  refine bind_eq_ok_iff.mpr ⟨manifest, read_of_respelled hm hread, ?_⟩
  have hclean (entry : String) :
      (p.join (.ofString entry)).clean = (q.join (.ofString entry)).clean := by
    have hjoin := Path.respelled_join h.isAbsolute_left h.isAbsolute_right h.same
      (.ofString entry)
    exact Path.clean_of_same hjoin.isAbsolute_left hjoin.isAbsolute_right hjoin.same
  simp only [hclean] at hentry
  exact hentry

private theorem asDirectory_of_respelled (h : Respelled p q)
    (hnone : r.asDirectory t p = .ok none) : r.asDirectory t q = .ok none := by
  have hm := Path.respelled_join h.isAbsolute_left h.isAbsolute_right h.same manifestName
  unfold asDirectory at hnone ⊢
  rw [← FileTree.isDirectory_of_respelled h]
  split
  · next hd =>
    rw [if_pos hd] at hnone
    dsimp only at hnone ⊢
    rw [← FileTree.isFile_of_respelled hm]
    split at hnone
    · next hf =>
      obtain ⟨entry, hentry, hrest⟩ := bind_eq_ok_iff.mp hnone
      rw [if_pos hf]
      cases entry with
      | some f => cases hrest
      | none =>
        exact bind_eq_ok_iff.mpr ⟨none, entryOf_of_respelled h hm hentry,
          congrArg Except.ok (indexOf_of_respelled h (Except.ok.inj hrest))⟩
    · next hf =>
      rw [if_neg hf]
      exact congrArg Except.ok (indexOf_of_respelled h (Except.ok.inj hnone))
  · rfl

private theorem asFileOrDirectory_of_respelled (h : Respelled p q)
    (hnone : r.asFileOrDirectory t p = .ok none) : r.asFileOrDirectory t q = .ok none := by
  unfold asFileOrDirectory at hnone ⊢
  split at hnone
  · cases hnone
  · next hfile =>
    rw [asFile_of_respelled h hfile]
    exact asDirectory_of_respelled h hnone

/-! ### Directories of packages -/

/-- In directories that mean the same, a specifier leads to respelled paths. -/
theorem LeadsIn.exists_respelled (hd : d.isAbsolute) (hd' : d'.isAbsolute) (h : d.same d')
    (hp : LeadsIn t s d p) : ∃ q, LeadsIn t s d' q ∧ Respelled p q := by
  have hjoin (x : Path) := Path.respelled_join hd hd' h x
  cases hp with
  | whole split eq =>
    subst eq
    exact ⟨_, .whole split rfl, hjoin _⟩
  | package split holds eq =>
    subst eq
    rw [FileTree.pathExists_of_respelled (hjoin _)] at holds
    exact ⟨_, .package split holds rfl, hjoin _⟩
  | @inside name rest split holds eq =>
    subst eq
    have hpackage := hjoin (.ofString (.ofList name))
    rw [FileTree.pathExists_of_respelled hpackage] at holds
    exact ⟨_, .inside split holds rfl, Path.respelled_join hpackage.isAbsolute_left
      hpackage.isAbsolute_right hpackage.same _⟩

/-- Where nothing is found, nothing is found in a directory that means the same. -/
theorem probe_of_same (hd : d.isAbsolute) (hd' : d'.isAbsolute) (h : d'.same d)
    (hnone : r.probe t s d = .ok none) : r.probe t s d' = .ok none := by
  unfold probe at hnone ⊢
  split
  · rfl
  · next q hq =>
    obtain ⟨p, hp, hrespelled⟩ :=
      LeadsIn.exists_respelled hd' hd h (candidate_eq_some_iff.mp hq)
    rw [candidate_eq_some_iff.mpr hp] at hnone
    exact asFileOrDirectory_of_respelled hrespelled.symm hnone

end Relocation.Resolver
