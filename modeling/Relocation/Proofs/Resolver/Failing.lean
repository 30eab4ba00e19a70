import Relocation.Proofs.FileTree.Worded
import Relocation.Proofs.Resolver.Found

/-!
# Why the resolver fails

The resolver fails in two ways only: no file was found, or a manifest could not be read as one. A
path that was tested to lead to a file can be opened and has a canonical path, and no path is left
without a meaning. In a tree whose names are text, the answer is text.
-/

namespace Relocation

/-- A computation fails in certain ways only. -/
def FailsOnly {ε α : Type} (P : ε → Prop) (x : Except ε α) : Prop := ∀ e, x = .error e → P e

namespace FailsOnly

variable {ε δ α β : Type} {P : ε → Prop} {x : Except ε α}

/-- What does not fail fails only in certain ways. -/
theorem ok (a : α) : FailsOnly P (.ok a : Except ε α) := fun _ h ↦ by cases h

/-- What fails in a certain way fails in that way only. -/
theorem error {e : ε} (h : P e) : FailsOnly P (.error e : Except ε α) := fun _ he ↦ by
  cases he
  exact h

/-- What comes to a value does not fail. -/
theorem of_eq_ok {a : α} (h : x = .ok a) : FailsOnly P x := h ▸ ok a

/-- What fails only in certain ways does so in more ways too. -/
theorem mono {Q : ε → Prop} (h : FailsOnly P x) (hPQ : ∀ e, P e → Q e) : FailsOnly Q x :=
  fun e he ↦ hPQ e (h e he)

/-- If both of two computations fail so, both together do. -/
theorem bind {f : α → Except ε β} (hx : FailsOnly P x) (hf : ∀ a, x = .ok a → FailsOnly P (f a)) :
    FailsOnly P (x >>= f) := by
  cases x with
  | ok a => exact hf a rfl
  | error e => exact error (hx e rfl)

/-- Failures that are reported otherwise are of a kind if their reports are. -/
theorem mapError {Q : δ → Prop} {f : ε → δ} (hx : FailsOnly (fun e ↦ Q (f e)) x) :
    FailsOnly Q (x.mapError f) := by
  cases x with
  | ok a => exact ok a
  | error e => exact error (hx e rfl)

end FailsOnly

namespace Resolver

variable {r : Resolver} {t : FileTree} {p f : Path}

/-- Nothing was found, or a manifest could not be read as one. -/
inductive Error.OfSearch : Error → Prop where
  | notFound (specifier : String) (searched : List Path) : OfSearch (.notFound specifier searched)
  | manifest (path : Path) (error : Json.Error) : OfSearch (.manifest path error)

open Relocation.Resolver.Error (OfSearch)

section

variable {P : Error → Prop} (hP : ∀ path cause, P (.manifest path cause))

include hP

/-- A manifest that is a file can be opened. -/
theorem failsOnly_read (h : t.isFile p) : FailsOnly P (Manifest.read t p) := by
  obtain ⟨content, hread⟩ := FileTree.isFile_iff_read.mp h
  rw [Manifest.read, hread]
  exact .mapError fun e _ ↦ hP p e

private theorem failsOnly_entryOf {m : Path} (h : t.isFile m) : FailsOnly P (r.entryOf t p m) := by
  refine (failsOnly_read hP h).bind fun manifest _ ↦ ?_
  dsimp only
  split
  · exact .ok _
  · split <;> exact .ok _

/-- In one place, only a manifest that is none ends the search. -/
theorem failsOnly_asDirectory : FailsOnly P (r.asDirectory t p) := by
  unfold asDirectory
  split
  · dsimp only
    split
    · next hm => exact (failsOnly_entryOf hP hm).bind fun _ _ ↦ .ok _
    · exact .ok _
  · exact .ok _

private theorem failsOnly_asFileOrDirectory : FailsOnly P (r.asFileOrDirectory t p) := by
  unfold asFileOrDirectory
  split
  · exact .ok _
  · exact failsOnly_asDirectory hP

private theorem failsOnly_lookup {onlyDirectory : Bool} :
    FailsOnly P (r.lookup t onlyDirectory p) := by
  unfold lookup
  split
  · exact failsOnly_asDirectory hP
  · exact failsOnly_asFileOrDirectory hP

/-- A probe fails only where a manifest is broken. -/
theorem failsOnly_probe {specifier : String} {d : Path} :
    FailsOnly P (r.probe t specifier d) := by
  unfold probe
  split
  · exact .ok _
  · exact failsOnly_asFileOrDirectory hP

end

private theorem failsOnly_firstHit {specifier : String} {ds : List Path} :
    FailsOnly OfSearch (r.firstHit t specifier ds) := by
  induction ds with
  | nil => exact .ok none
  | cons d ds ih =>
    unfold firstHit
    split
    · exact .ok _
    · exact ih
    · next e he => exact .error (failsOnly_probe OfSearch.manifest e he)

/-- There is an answer for each file. -/
theorem exists_settle_of_isFile (h : t.isFile f) : ∃ file, r.settle t f = .ok file := by
  obtain ⟨q, -, hq, -⟩ := FileTree.isFile_iff.mp h
  unfold settle
  split
  · exact ⟨_, rfl⟩
  · exact ⟨q.path, mapError_eq_ok_iff.mpr (FileTree.canonicalize_eq_ok_iff.mpr ⟨q, hq, rfl⟩)⟩

private theorem failsOnly_settle {P : Error → Prop} (h : t.isFile f) :
    FailsOnly P (r.settle t f) := by
  obtain ⟨file, hfile⟩ := exists_settle_of_isFile (r := r) h
  exact .of_eq_ok hfile

/-- A package is not found, or a manifest on the way is none. -/
theorem failsOnly_resolvePackage {specifier : String} {searchPaths : List Path} :
    FailsOnly OfSearch (r.resolvePackage t specifier searchPaths) := by
  refine failsOnly_firstHit.bind fun found hfound ↦ ?_
  cases found with
  | none => exact .error (.notFound ..)
  | some f => exact failsOnly_settle (isFile_of_firstHit hfound)

/-- A path from an absolute directory is not found, or a manifest on the way is none. -/
theorem failsOnly_resolvePath {base : Path} {specifier : String} (h : base.isAbsolute) :
    FailsOnly OfSearch (r.resolvePath t base specifier) := by
  rw [resolvePath_eq (if_pos h)]
  refine (failsOnly_lookup OfSearch.manifest).bind fun found hfound ↦ ?_
  cases found with
  | none => exact .error (.notFound ..)
  | some f => exact failsOnly_settle (isFile_of_lookup hfound)

/-- The answer for a file is text if the names in the tree are. -/
theorem textual_of_settle (ht : t.Worded) (hf : t.isFile f) {file : Path}
    (h : r.settle t f = .ok file) : Textual file := by
  obtain ⟨q, -, hq, -⟩ := FileTree.isFile_iff.mp hf
  rw [settle_eq_ok_iff] at h
  split at h
  · exact h ▸ Textual.clean ⟨isAbsolute_of_isFile hf, ht.isText_of_locate hq⟩
  · obtain ⟨ns, rfl, -⟩ := FileTree.exists_rooted_of_canonicalize h
    exact ⟨Path.isAbsolute_rooted ns, ht.isText_of_canonicalize h⟩

/-- The file of a package is text if the names in the tree are. -/
theorem textual_of_resolvePackage (ht : t.Worded) {specifier : String} {searchPaths : List Path}
    {file : Path} (h : r.resolvePackage t specifier searchPaths = .ok file) : Textual file := by
  obtain ⟨found, hfound, h⟩ := bind_eq_ok_iff.mp h
  cases found with
  | none => cases h
  | some f => exact textual_of_settle ht (isFile_of_firstHit hfound) h

/-- So is the file that a path leads to. -/
theorem textual_of_resolvePath (ht : t.Worded) {base : Path} (hb : base.isAbsolute)
    {specifier : String} {file : Path} (h : r.resolvePath t base specifier = .ok file) :
    Textual file := by
  obtain ⟨found, hfound, hs⟩ := (resolvePath_eq_ok_iff (if_pos hb)).mp h
  exact textual_of_settle ht (isFile_of_lookup hfound) hs

end Resolver

end Relocation
