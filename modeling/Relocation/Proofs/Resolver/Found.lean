import Relocation.Proofs.FileTree.Existing
import Relocation.Resolver.Basic

/-!
# What the resolver finds

Every path that the resolver finds leads to a file. If it was looked for at an absolute path that
is text, it is one too. The answer is the clean form or the canonical path of what was found, so
ways can be measured to it.
-/

namespace Relocation

/-- A computation that binds another has a result if both have one. -/
theorem bind_eq_ok_iff {ε α β : Type} {x : Except ε α} {f : α → Except ε β} {b : β} :
    (x >>= f) = .ok b ↔ ∃ a, x = .ok a ∧ f a = .ok b := by
  cases x with
  | error e =>
    constructor
    · intro h
      cases h
    · rintro ⟨a, ha, -⟩
      cases ha
  | ok a =>
    constructor
    · exact fun h ↦ ⟨a, rfl, h⟩
    · rintro ⟨_, ha, h⟩
      cases ha
      exact h

/-- What a run comes to, by its value alone. -/
theorem eq_ok_of_toOption {ε α : Type} {x : Except ε α} {a : α} (h : x.toOption = some a) :
    x = .ok a := by
  cases x with
  | error e => cases h
  | ok b => exact congrArg _ (Option.some.inj h)

/-- Reporting errors otherwise changes no value. -/
theorem mapError_eq_ok_iff {ε δ α : Type} {x : Except ε α} {f : ε → δ} {a : α} :
    x.mapError f = .ok a ↔ x = .ok a := by
  cases x <;> simp [Except.mapError]

namespace Resolver

open Relocation.Path (Anchored Plain dot dotDot slash rooted)
open Text.Utf8 (IsText encode)

variable {r : Resolver} {t : FileTree} {p f : Path}

/-! ### Files -/

private theorem isFile_of_firstExtended {name : String} {es : List String}
    (h : firstExtended t name p es = some f) : t.isFile f := by
  induction es generalizing p with
  | nil => simp [firstExtended] at h
  | cons e es ih =>
    simp only [firstExtended] at h
    split at h
    · next hf =>
      cases h
      exact hf
    · exact ih h

/-- What is found as a file is one. -/
theorem isFile_of_asFile (h : r.asFile t p = some f) : t.isFile f := by
  simp only [asFile] at h
  split at h
  · next hf =>
    cases h
    exact hf
  · split at h
    · exact isFile_of_firstExtended h
    · simp at h

private theorem isFile_of_indexOf (h : r.indexOf t p = some f) : t.isFile f :=
  List.find?_some h

/-- An index file has one of the extensions. -/
theorem exists_of_indexOf (h : r.indexOf t p = some f) :
    ∃ e ∈ r.extensions, p.join (.ofString ("index." ++ e)) = f :=
  List.mem_map.mp (List.mem_of_find?_eq_some h)

/-- The file of an entry is found where the entry leads, or stands there as an index file. -/
theorem entryOf_cases {m : Path} (h : r.entryOf t p m = .ok (some f)) :
    ∃ entry, r.asFile t (p.join (.ofString entry)).clean = some f ∨
      r.indexOf t (p.join (.ofString entry)).clean = some f := by
  obtain ⟨manifest, -, h⟩ := bind_eq_ok_iff.mp h
  split at h
  · cases h
  · next entry _ =>
    refine ⟨entry, ?_⟩
    cases ha : r.asFile t (p.join (.ofString entry)).clean with
    | some g =>
      simp only [ha] at h
      cases h
      exact .inl rfl
    | none =>
      simp only [ha] at h
      split at h
      · exact .inr (Except.ok.inj h)
      · cases h

private theorem isFile_of_entryOf {m : Path} (h : r.entryOf t p m = .ok (some f)) : t.isFile f := by
  obtain ⟨entry, h | h⟩ := entryOf_cases h
  · exact isFile_of_asFile h
  · exact isFile_of_indexOf h

/-- The file that a directory stands for, by its parts: the entry or the index file. -/
theorem asDirectory_cases (h : r.asDirectory t p = .ok (some f)) :
    r.entryOf t p (p.join manifestName) = .ok (some f) ∨ r.indexOf t p = some f := by
  unfold asDirectory at h
  split at h
  · dsimp only at h
    split at h
    · obtain ⟨entry, he, h⟩ := bind_eq_ok_iff.mp h
      cases entry with
      | none => exact .inr (Except.ok.inj h)
      | some g =>
        cases h
        exact .inl he
    · exact .inr (Except.ok.inj h)
  · cases h

private theorem isFile_of_asDirectory (h : r.asDirectory t p = .ok (some f)) : t.isFile f :=
  (asDirectory_cases h).elim isFile_of_entryOf isFile_of_indexOf

/-- What is found for a path is found as a file or in the directory. -/
theorem asFileOrDirectory_cases (h : r.asFileOrDirectory t p = .ok (some f)) :
    r.asFile t p = some f ∨ r.asDirectory t p = .ok (some f) := by
  simp only [asFileOrDirectory] at h
  split at h
  · next hf =>
    cases h
    exact .inl hf
  · exact .inr h

/-- What is found for a path is a file. -/
theorem isFile_of_asFileOrDirectory (h : r.asFileOrDirectory t p = .ok (some f)) : t.isFile f :=
  (asFileOrDirectory_cases h).elim isFile_of_asFile isFile_of_asDirectory

/-- What is found for a package is a file. -/
theorem isFile_of_firstHit {specifier : String} {ds : List Path}
    (h : r.firstHit t specifier ds = .ok (some f)) : t.isFile f := by
  induction ds with
  | nil => cases h
  | cons d ds ih =>
    simp only [firstHit] at h
    split at h
    · next hp =>
      cases h
      simp only [probe] at hp
      split at hp
      · cases hp
      · exact isFile_of_asFileOrDirectory hp
    · exact ih h
    · cases h

/-! ### Kinds of paths that the search stays in -/

/-- A file that is found for a path is of each kind that extensions of the path's name stay in. -/
theorem asFile_of_extended {K : Path → Prop}
    (hext : ∀ {q name e}, p.fileName? = some name → K q → e ∈ r.extensions →
      K (withExtension q (Text.Utf8.decodeLossy name) e))
    (hp : K p) (hf : r.asFile t p = some f) : K f := by
  have hextended {name : Name} (hn : p.fileName? = some name) {es : List String} {q : Path}
      (hq : K q) (hes : es ⊆ r.extensions)
      (hf : firstExtended t (Text.Utf8.decodeLossy name) q es = some f) : K f := by
    induction es generalizing q with
    | nil => simp [firstExtended] at hf
    | cons e es ih =>
      obtain ⟨he, hes⟩ := List.cons_subset.mp hes
      have hnext := hext hn hq he
      simp only [firstExtended] at hf
      split at hf
      · cases hf
        exact hnext
      · exact ih hnext hes hf
  simp only [Resolver.asFile] at hf
  split at hf
  · cases hf
    exact hp
  · split at hf
    · next hn => exact hextended hn hp (List.Subset.refl _) hf
    · simp at hf

/-- A kind of path is closed under what is tried for a path: extensions in the place of one
another, index files and entries. -/
structure Closed (r : Resolver) (K : Path → Prop) : Prop where
  extended : ∀ {p q name e}, K p → p.fileName? = some name → K q → e ∈ r.extensions →
    K (withExtension q (Text.Utf8.decodeLossy name) e)
  index : ∀ {p e}, K p → e ∈ r.extensions → K (p.join (.ofString ("index." ++ e)))
  entry : ∀ {p} entry, K p → K (p.join (.ofString entry)).clean

namespace Closed

variable {K : Path → Prop}

private theorem asFile (h : r.Closed K) (hp : K p) (hf : r.asFile t p = some f) : K f :=
  asFile_of_extended (fun hn hq he ↦ h.extended hp hn hq he) hp hf

private theorem indexOf (h : r.Closed K) (hp : K p) (hf : r.indexOf t p = some f) : K f := by
  obtain ⟨e, he, rfl⟩ := exists_of_indexOf hf
  exact h.index hp he

private theorem asDirectory (h : r.Closed K) (hp : K p) (hf : r.asDirectory t p = .ok (some f)) :
    K f := by
  rcases asDirectory_cases hf with hf | hf
  · obtain ⟨entry, hf⟩ := entryOf_cases hf
    exact hf.elim (h.asFile (h.entry entry hp)) (h.indexOf (h.entry entry hp))
  · exact h.indexOf hp hf

end Closed

/-! ### Absolute paths that are text -/

/-- A path that begins at the root and is text. -/
structure Textual (p : Path) : Prop where
  isAbsolute : p.isAbsolute
  isText : IsText p.bytes

/-- An absolute path of names that are text is text and begins at the root. -/
theorem textual_rooted {ns : List Name} (h : ∀ n ∈ ns, IsText n) : Textual (rooted ns) :=
  ⟨Path.isAbsolute_rooted ns, Path.isText_rooted h⟩

namespace Textual

/-- The directory of an absolute path that is text is one too. -/
theorem parentDirectory (h : Textual p) : Textual p.parentDirectory :=
  ⟨Path.isAbsolute_parentDirectory h.isAbsolute, Path.isText_parentDirectory h.isAbsolute h.isText⟩

/-- What a string leads to from an absolute path that is text is one too. -/
theorem join_ofString (h : Textual p) (s : String) : Textual (p.join (.ofString s)) :=
  ⟨Path.isAbsolute_join _ h.isAbsolute, Path.isText_join h.isText (Path.isText_ofString s)⟩

/-- The clean form of an absolute path that is text is one too. -/
theorem clean (h : Textual p) : Textual p.clean := by
  rw [Path.clean_of_isAbsolute h.isAbsolute h.isText]
  exact textual_rooted (Path.isText_of_mem_names h.isText)

private theorem withExtension (h : Textual p) (name extension : String) :
    Textual (withExtension p name extension) := by
  unfold Resolver.withExtension Path.withFileName
  split
  · exact h.parentDirectory.join_ofString _
  · exact h.join_ofString _

end Textual

/-- All that is tried for an absolute path that is text is one too. -/
theorem closed_textual (r : Resolver) : r.Closed Textual where
  extended _ _ hq _ := hq.withExtension _ _
  index hp _ := hp.join_ofString _
  entry entry hp := (hp.join_ofString entry).clean

/-! ### Answers -/

/-- The answer for a file in general. -/
theorem settle_eq_ok_iff {file : Path} :
    r.settle t p = .ok file ↔
      if r.preserveLinks then p.clean = file else t.canonicalize p = .ok file := by
  unfold settle
  split
  · rw [Except.ok.injEq]
  · exact mapError_eq_ok_iff

/-- The path of a file begins at the root. -/
theorem isAbsolute_of_isFile (h : t.isFile p) : p.isAbsolute := by
  obtain ⟨q, -, hq, -⟩ := FileTree.isFile_iff.mp h
  exact (FileTree.locate_eq_ok_iff.mp hq).2.1

/-- Ways can be measured to what the resolver answers. -/
theorem anchored_of_settle {file : Path} (hp : p.isAbsolute) (h : r.settle t p = .ok file) :
    Anchored file := by
  rw [settle_eq_ok_iff] at h
  split at h
  · subst h
    by_cases ht : IsText p.bytes
    · rw [Path.clean_of_isAbsolute hp ht]
      exact .inl (Path.isAbsolute_rooted _)
    · exact .inr (Path.clean_of_not_isText ht)
  · obtain ⟨ns, rfl, -⟩ := FileTree.exists_rooted_of_canonicalize h
    exact .inl (Path.isAbsolute_rooted _)

/-- Ways can be measured to the file of a package. -/
theorem anchored_of_resolvePackage {specifier : String} {searchPaths : List Path} {file : Path}
    (h : r.resolvePackage t specifier searchPaths = .ok file) : Anchored file := by
  obtain ⟨found, hfound, h⟩ := bind_eq_ok_iff.mp h
  cases found with
  | none => cases h
  | some p => exact anchored_of_settle (isAbsolute_of_isFile (isFile_of_firstHit hfound)) h

/-- How a specifier that can only mean a directory, or any other, is looked for. -/
def lookup (r : Resolver) (t : FileTree) (onlyDirectory : Bool) (p : Path) :
    Except Error (Option Path) :=
  if onlyDirectory then r.asDirectory t p else r.asFileOrDirectory t p

/-- What is looked up is a file. -/
theorem isFile_of_lookup {onlyDirectory : Bool} (h : r.lookup t onlyDirectory p = .ok (some f)) :
    t.isFile f := by
  unfold lookup at h
  split at h
  · exact isFile_of_asDirectory h
  · exact isFile_of_asFileOrDirectory h

/-- What is found is of the kind of the path that it was looked for at. -/
theorem Closed.lookup {K : Path → Prop} (h : r.Closed K) {onlyDirectory : Bool} (hp : K p)
    (hf : r.lookup t onlyDirectory p = .ok (some f)) : K f := by
  unfold Resolver.lookup at hf
  split at hf
  · exact h.asDirectory hp hf
  · exact (asFileOrDirectory_cases hf).elim (h.asFile hp) (h.asDirectory hp)

/-- A specifier is looked for where it leads. -/
theorem resolvePath_eq {base target : Path} {specifier : String}
    (h : base.resolve (.ofString specifier) = .ok target) :
    r.resolvePath t base specifier =
      r.lookup t (isDirectorySpecifier specifier) target >>= fun found ↦
        found.elim (throw (.notFound specifier [target])) (r.settle t) := by
  unfold resolvePath lookup
  rw [h]
  cases isDirectorySpecifier specifier
  · change r.asFileOrDirectory t target >>= _ = r.asFileOrDirectory t target >>= _
    exact bind_congr fun found ↦ by cases found <;> rfl
  · change r.asDirectory t target >>= _ = r.asDirectory t target >>= _
    exact bind_congr fun found ↦ by cases found <;> rfl

/-- A specifier is resolved to the answer for what is found where it leads. -/
theorem resolvePath_eq_ok_iff {base target file : Path} {specifier : String}
    (h : base.resolve (.ofString specifier) = .ok target) :
    r.resolvePath t base specifier = .ok file ↔
      ∃ found, r.lookup t (isDirectorySpecifier specifier) target = .ok (some found) ∧
        r.settle t found = .ok file := by
  rw [resolvePath_eq h, bind_eq_ok_iff]
  constructor
  · rintro ⟨found, hfound, hs⟩
    cases found with
    | none => cases hs
    | some p => exact ⟨p, hfound, hs⟩
  · rintro ⟨found, hfound, hs⟩
    exact ⟨some found, hfound, hs⟩

end Resolver

end Relocation
