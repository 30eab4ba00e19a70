import Relocation.Proofs.FileTree.Parts
import Relocation.Proofs.Resolver.Directory
import Relocation.Proofs.Resolver.Search

/-!
# What specifiers of directories lead to

A specifier that ends with a slash or with dots names a directory. What is found for it is what the
directory stands for, with two exceptions. A dot behind a name is overlooked where a path is
resolved, and a slash or a dot at the end is overlooked where a package is: there the directory is
passed over if a file stands beside it whose name only has an extension more.
-/

namespace Relocation.Resolver

open Relocation.Path (Component Plain dot dotDot slash segmentsOf rooted)
open Text.Utf8 (encode)

variable {r : Resolver} {t : FileTree} {s : String} {base d p f file target : Path}

/-! ### Spellings of directories -/

/-- A specifier names a directory: it ends with a slash, or its last segment is one or two dots. -/
def NamesDirectory (s : String) : Prop :=
  s.toList.getLast? = some '/' ∨ (Path.ofString s).segments.getLast? = some dot ∨
    (Path.ofString s).segments.getLast? = some dotDot

/-- The last segment of a specifier is a dot, and the last component that it means is a name. -/
def EndsInDot (s : String) : Prop :=
  (Path.ofString s).segments.getLast? = some dot ∧
    ∃ n, (Path.ofString s).components.getLast? = some (.name n)

/-- The last segment of a specifier is two dots. -/
def EndsInDotDot (s : String) : Prop := (Path.ofString s).segments.getLast? = some dotDot

private theorem getLast?_segments_of_slash (h : s.toList.getLast? = some '/') :
    (Path.ofString s).segments.getLast? = some [] := by
  rw [getLast?_toList_eq_slash_iff] at h
  obtain ⟨bs, hbs⟩ := List.getLast?_eq_some_iff.mp h
  show (segmentsOf (encode s)).getLast? = some []
  rw [hbs, Path.segmentsOf_append_slash]
  exact List.getLast?_concat

private theorem NamesDirectory.exists_getLast? (h : NamesDirectory s) :
    ∃ n, (Path.ofString s).segments.getLast? = some n ∧ (n = [] ∨ n = dot ∨ n = dotDot) := by
  rcases h with h | h | h
  · exact ⟨[], getLast?_segments_of_slash h, .inl rfl⟩
  · exact ⟨dot, h, .inr (.inl rfl)⟩
  · exact ⟨dotDot, h, .inr (.inr rfl)⟩

/-- A dot behind a name is overlooked by the test whether a specifier can only mean a directory. -/
theorem EndsInDot.isDirectorySpecifier_eq_false (h : EndsInDot s) :
    isDirectorySpecifier s = false := by
  obtain ⟨hdot, n, hn⟩ := h
  have hslash : s.toList.getLast? ≠ some '/' := by
    intro hs
    rw [getLast?_segments_of_slash hs] at hdot
    cases hdot
  simp [isDirectorySpecifier, hslash, hn]

private theorem root_notMem_of_segments (ss : List Name) :
    Component.root ∉ ss.filterMap Component.ofSegment := by
  rw [List.mem_filterMap]
  rintro ⟨m, -, hm⟩
  unfold Component.ofSegment at hm
  split at hm
  · cases hm
  · split at hm <;> cases hm

/-- A path whose last component is the root means nothing else. -/
private theorem components_of_root {q : Path} (h : q.components.getLast? = some .root) :
    q.isAbsolute ∧ q.components = [.root] := by
  have hroot := root_notMem_of_segments q.segments
  cases ha : q.isAbsolute with
  | false =>
    have hmem := List.mem_of_getLast? h
    unfold Path.components at hmem
    rw [ha, if_neg Bool.false_ne_true] at hmem
    split at hmem
    · rcases List.mem_cons.mp hmem with hm | hm
      · cases hm
      · exact absurd hm hroot
    · exact absurd hmem hroot
  | true =>
    have hc : q.components = .root :: q.segments.filterMap Component.ofSegment := by
      unfold Path.components
      rw [ha, if_pos rfl]
    have hnil : q.segments.filterMap Component.ofSegment = [] := by
      by_contra hne
      rw [hc, List.getLast?_cons_of_ne_nil hne] at h
      exact hroot (List.mem_of_getLast? h)
    exact ⟨rfl, by rw [hc, hnil]⟩

/-- A path whose last component is the root leads there from everywhere. -/
private theorem resolve_of_root {q : Path} (hq : q.components.getLast? = some .root)
    (ht : Text.Utf8.IsText q.bytes) (h : base.resolve q = .ok target) : target = rooted [] := by
  obtain ⟨ha, hc⟩ := components_of_root hq
  have hsame : q.same (rooted []) := by
    apply decide_eq_true
    rw [hc, Path.components_rooted (by simp)]
    rfl
  unfold Path.resolve at h
  split at h
  · rw [← Except.ok.inj h, Path.join_of_isAbsolute base ha, Path.clean_of_isAbsolute ha ht,
      Path.names_of_same ha (by simp) hsame]
  · cases h

/-- A path whose last segment is a dot means something. -/
theorem components_ne_nil_of_dot {q : Path} (h : q.segments.getLast? = some dot) :
    q.components ≠ [] := by
  unfold Path.components
  split
  · exact List.cons_ne_nil _ _
  · next ha =>
    split
    · exact List.cons_ne_nil _ _
    · next hhead =>
      obtain ⟨y, ys, hys⟩ := List.exists_cons_of_ne_nil q.segments_ne_nil
      rw [hys] at h hhead ⊢
      have hy : y ≠ [] := by
        rintro rfl
        cases ys with
        | nil => cases h
        | cons z zs => exact ha (Path.isAbsolute_of_segments_nil hys)
      have hdot : y ≠ dot := fun h0 ↦ hhead (by rw [h0]; rfl)
      have hsome : ∃ c, Component.ofSegment y = some c := by
        unfold Component.ofSegment
        rw [if_neg (by simp [hy, hdot])]
        split <;> exact ⟨_, rfl⟩
      obtain ⟨c, hc⟩ := hsome
      rw [List.filterMap_cons_some hc]
      exact List.cons_ne_nil _ _

/-! ### What is looked for -/

/-- What a path leads to: if files count, a file by itself or with an extension, and else what the
directory stands for. -/
def Yields (r : Resolver) (t : FileTree) (files : Prop) (p f : Path) : Prop :=
  files ∧ r.asFile t p = some f ∨
    (files → r.asFile t p = none) ∧ r.asDirectory t p = .ok (some f)

private theorem yields_of_asFile_eq_none {files : Prop} (h : r.asFile t p = none) :
    r.Yields t files p f ↔ r.asDirectory t p = .ok (some f) := by
  simp [Yields, h]

private theorem asDirectory_iff_yields {files : Prop} (h : ¬files) :
    r.asDirectory t p = .ok (some f) ↔ r.Yields t files p f := by
  simp [Yields, h]

private theorem asFileOrDirectory_iff_yields {files : Prop} (h : files) :
    r.asFileOrDirectory t p = .ok (some f) ↔ r.Yields t files p f := by
  unfold asFileOrDirectory Yields
  cases r.asFile t p <;> simp [h]

/-- No file is found at a path whose last segment is two dots. -/
theorem asFile_of_dotDot (h : p.segments.getLast? = some dotDot) : r.asFile t p = none := by
  have hfile : t.isFile p = false :=
    FileTree.isFile_eq_false_of_getLast? h (.inr (.inr rfl))
  have hback : ∃ ss, p.backSegments = dotDot :: ss := by
    have hstays (absolute : Bool) {ss : List Name} (hss : ss.getLast? = some dotDot) :
        ∃ us, Path.trimBack absolute ss.reverse = dotDot :: us := by
      obtain ⟨us, rfl⟩ := List.getLast?_eq_some_iff.mp hss
      exact ⟨us.reverse, by rw [List.reverse_concat]; rfl⟩
    unfold Path.backSegments
    split
    · next ha =>
      obtain ⟨bs, -, hbs⟩ := Path.segments_of_isAbsolute ha
      rw [hbs] at h ⊢
      refine hstays _ ?_
      rwa [List.getLast?_cons_of_ne_nil (Path.segmentsOf_ne_nil bs)] at h
    · exact hstays _ h
  obtain ⟨ss, hss⟩ := hback
  have hname : p.fileName? = none := by
    unfold Path.fileName?
    rw [hss]
    rfl
  unfold asFile
  rw [hfile, hname]
  rfl

/-- No file is found at the root. -/
theorem asFile_root : r.asFile t (rooted []) = none := by
  have hfile : t.isFile (rooted []) = false :=
    FileTree.isFile_eq_false_of_getLast? (s := []) rfl (.inl rfl)
  have hname : (rooted []).fileName? = none := by decide
  unfold asFile
  rw [hfile, hname]
  rfl

/-- A directory without a manifest stands for its index file. -/
theorem indexOf_of_asDirectory (ht : t.Without manifestName.bytes)
    (h : r.asDirectory t p = .ok (some f)) : r.indexOf t p = some f := by
  have hname : Plain manifestName.bytes := ⟨by decide, by decide, by decide, by decide⟩
  have hlast : (p.join manifestName).segments.getLast? = some manifestName.bytes := by
    rw [Path.getLast?_segments_join]
    decide
  unfold asDirectory at h
  split at h
  · dsimp only at h
    rw [ht.isFile_eq_false hname hlast] at h
    exact Except.ok.inj h
  · cases h

/-! ### What is found -/

/-- Where a path is resolved, files count for a directory only if it ends with a dot behind a
name. -/
theorem lookup_iff_yields (hs : NamesDirectory s)
    (ht : base.resolve (.ofString s) = .ok target) :
    r.lookup t (isDirectorySpecifier s) target = .ok (some f) ↔
      r.Yields t (EndsInDot s) target f := by
  by_cases hdot : EndsInDot s
  · rw [hdot.isDirectorySpecifier_eq_false]
    exact asFileOrDirectory_iff_yields hdot
  · cases hd : isDirectorySpecifier s with
    | true => exact asDirectory_iff_yields hdot
    | false =>
      -- what is left is a dot behind the root
      unfold isDirectorySpecifier at hd
      rw [Bool.or_eq_false_iff, decide_eq_false_iff_not] at hd
      obtain ⟨hslash, hcomponent⟩ := hd
      have hlast : (Path.ofString s).segments.getLast? = some dot := by
        rcases hs with h | h | h
        · exact absurd h hslash
        · exact h
        · obtain ⟨init, hinit⟩ := List.getLast?_eq_some_iff.mp h
          have htrue := isDirectorySpecifier_of_dotDot hinit
          simp [isDirectorySpecifier, hslash, hcomponent] at htrue
      have hroot : (Path.ofString s).components.getLast? = some .root := by
        cases hc : (Path.ofString s).components.getLast? with
        | none =>
          exact absurd (List.getLast?_eq_none_iff.mp hc) (components_ne_nil_of_dot hlast)
        | some c =>
          rw [hc] at hcomponent
          cases c with
          | root => rfl
          | current => cases hcomponent
          | parent => cases hcomponent
          | name n => exact absurd ⟨hlast, n, hc⟩ hdot
      rw [resolve_of_root hroot (Path.isText_ofString s) ht, yields_of_asFile_eq_none asFile_root]
      show r.asFileOrDirectory t (rooted []) = .ok (some f) ↔ _
      rw [asFileOrDirectory, asFile_root]

/-- Where a package is resolved, files count for a directory unless it ends with two dots. -/
theorem LeadsIn.asFileOrDirectory_iff_yields (h : LeadsIn t s d p) :
    r.asFileOrDirectory t p = .ok (some f) ↔ r.Yields t (¬EndsInDotDot s) p f := by
  by_cases hdots : EndsInDotDot s
  · have hnone : r.asFile t p = none := asFile_of_dotDot (h.getLast?_segments.trans hdots)
    rw [yields_of_asFile_eq_none hnone, asFileOrDirectory, hnone]
  · exact Resolver.asFileOrDirectory_iff_yields hdots

/-- The file that is found for a specifier of a directory is the one that the directory stands for,
except for a file beside the directory that a dot behind a name lets through where a path is
resolved, and every end but two dots where a package is. At the path of a package's directory itself
there is no file, so the file beside it has an extension more; without manifests a directory stands
for its index file. -/
theorem directory_specifier_yields (r : Resolver) (t : FileTree) {s : String}
    (hs : NamesDirectory s) :
    (∀ base file, r.resolvePath t base s = .ok file ↔
      ∃ target f, base.resolve (.ofString s) = .ok target ∧
        r.Yields t (EndsInDot s) target f ∧ r.settle t f = .ok file) ∧
    (∀ searchPaths file, r.resolvePackage t s searchPaths = .ok file ↔
      ∃ d p f, HitsIn (r.probe t s) (searchList searchPaths) d f ∧ LeadsIn t s d p ∧
        r.Yields t (¬EndsInDotDot s) p f ∧ r.settle t f = .ok file) ∧
    (∀ d p, LeadsIn t s d p →
      t.isFile p = false ∧ (¬DoublesSlash s → p.same (d.join (.ofString s)))) ∧
    (t.Without manifestName.bytes → ∀ p f, r.asDirectory t p = .ok (some f) →
      r.indexOf t p = some f) := by
  refine ⟨fun base file ↦ ?_, fun searchPaths file ↦ ?_, fun d p h ↦ ⟨?_, h.same⟩,
    fun ht p f h ↦ indexOf_of_asDirectory ht h⟩
  · cases htarget : base.resolve (.ofString s) with
    | error e =>
      refine iff_of_false ?_ (by simp)
      unfold resolvePath
      rw [htarget]
      exact fun h ↦ by cases h
    | ok target =>
      rw [resolvePath_eq_ok_iff htarget]
      simp only [lookup_iff_yields hs htarget, Except.ok.injEq, exists_and_left, exists_eq_left']
  · rw [resolvePackage_eq_ok_iff]
    constructor
    · rintro ⟨d, f, hits, hsettle⟩
      obtain ⟨p, hp, hf⟩ := probe_eq_ok_some_iff.mp hits.probe_eq
      exact ⟨d, p, f, hits, hp, hp.asFileOrDirectory_iff_yields.mp hf, hsettle⟩
    · rintro ⟨d, -, f, hits, -, -, hsettle⟩
      exact ⟨d, f, hits, hsettle⟩
  · obtain ⟨n, hn, hdots⟩ := hs.exists_getLast?
    exact FileTree.isFile_eq_false_of_getLast? (h.getLast?_segments.trans hn) hdots

/-- A project and a package that both have a directory and a file beside it. -/
def twoUtils : FileTree :=
  let utils : Entries := [(encode "utils.js", .file []),
    (encode "utils", .directory [(encode "index.js", .file [])])]
  ⟨[(encode "p", .directory
    [(encode "node_modules", .directory [(encode "pkg", .directory utils)]),
      (encode "src", .directory utils)])]⟩

/-- A specifier with a slash at its end leads to the index file, though a file stands beside the
directory. -/
theorem directory_specifier_yields_index :
    ∃ target f, Path.resolve (.ofString "/p/src") (.ofString "./utils/") = .ok target ∧
      NamesDirectory "./utils/" ∧ twoUtils.Without manifestName.bytes ∧
      Resolver.indexOf {} twoUtils target = some f ∧
      Resolver.settle {} twoUtils f = .ok (.ofString "/p/src/utils/index.js") := by
  have hs : NamesDirectory "./utils/" := .inl (by decide)
  have hw : twoUtils.Without manifestName.bytes := by decide
  have hr : Resolver.resolvePath {} twoUtils (.ofString "/p/src") "./utils/" =
      .ok (.ofString "/p/src/utils/index.js") := eq_ok_of_toOption (by decide +kernel)
  obtain ⟨hpath, -, -, hindex⟩ := directory_specifier_yields {} twoUtils hs
  obtain ⟨target, f, htarget, hyields, hsettle⟩ := (hpath _ _).mp hr
  have hdot : ¬EndsInDot "./utils/" := fun h ↦ absurd h.1 (by decide)
  have hdirectory := (asDirectory_iff_yields hdot).mpr hyields
  exact ⟨target, f, htarget, hs, hw, hindex hw target f hdirectory, hsettle⟩

/-- A file beside a directory is found for two specifiers that name the directory: behind a dot in
a path, and behind a slash in a package. -/
theorem directory_specifier_yields_file_beside :
    (NamesDirectory "./utils/." ∧
      Path.resolve (.ofString "/p/src") (.ofString "./utils/.") = .ok (.ofString "/p/src/utils") ∧
      Resolver.asDirectory {} twoUtils (.ofString "/p/src/utils") =
        .ok (some (.ofString "/p/src/utils/index.js")) ∧
      Resolver.resolvePath {} twoUtils (.ofString "/p/src") "./utils/." =
        .ok (.ofString "/p/src/utils.js")) ∧
    NamesDirectory "pkg/utils/" ∧
      LeadsIn twoUtils "pkg/utils/" (.ofString "/p/node_modules")
        (.ofString "/p/node_modules/pkg/utils/") ∧
      Resolver.asDirectory {} twoUtils (.ofString "/p/node_modules/pkg/utils/") =
        .ok (some (.ofString "/p/node_modules/pkg/utils/index.js")) ∧
      Resolver.resolvePackage {} twoUtils "pkg/utils/" [.ofString "/p"] =
        .ok (.ofString "/p/node_modules/pkg/utils.js") := by
  refine ⟨⟨.inr (.inl (by decide)), eq_ok_of_toOption (by decide +kernel),
    eq_ok_of_toOption (by decide +kernel), eq_ok_of_toOption (by decide +kernel)⟩,
    .inl (by decide), ?_, eq_ok_of_toOption (by decide +kernel),
    eq_ok_of_toOption (by decide +kernel)⟩
  exact candidate_eq_some_iff.mp (by decide +kernel)

end Relocation.Resolver
