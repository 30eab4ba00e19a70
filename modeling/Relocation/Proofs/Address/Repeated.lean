import Relocation.Proofs.Address.RoundTrip
import Relocation.Proofs.Resolver.Tidy

/-!
# Ways to local files, relocated again

The way to a local file is its own relocation if it is measured from the directory that it is read
from, and if that directory does not lie below a file by its name. Then the file is found where
the way leads, and the way does not end in a directory.
-/

namespace Relocation

open Relocation.Path (Anchored Plain descent markRelative names reach rooted wayBetween)
open Resolver (Textual)
open Text.Utf8 (IsText)

namespace Resolver

variable {r : Resolver} {t : FileTree}

/-- The answer for a specifier is a file that is its own answer. -/
theorem settle_of_resolvePath {base file : Path} {specifier : String} (hb : Textual base)
    (hr : r.Slashless) (h : r.resolvePath t base specifier = .ok file) :
    t.isFile file ∧ r.settle t file = .ok file ∧ file = rooted file.names := by
  have htarget : base.resolve (.ofString specifier) = .ok (base.join (.ofString specifier)).clean :=
    if_pos hb.isAbsolute
  obtain ⟨found, hfound, hs⟩ := (resolvePath_eq_ok_iff htarget).mp h
  have hfile := isFile_of_lookup hfound
  simp only [settle_eq_ok_iff] at hs ⊢
  split at hs
  · next hlinks =>
    have htidy := (closed_tidy hr).lookup (hb.join_ofString specifier).tidy_clean hfound
    rw [htidy.clean_eq] at hs
    subst hs
    exact ⟨hfile, by rw [if_pos hlinks, htidy.clean_eq], htidy.eq_rooted⟩
  · next hlinks =>
    obtain ⟨ns, rfl, hplain, -⟩ := FileTree.exists_rooted_of_canonicalize hs
    refine ⟨?_, ?_, by rw [Path.names_rooted hplain]⟩
    · rwa [FileTree.isFile_of_canonicalize hs]
    · rw [if_neg hlinks]
      exact FileTree.canonicalize_of_canonicalize hs

end Resolver

namespace Situation

variable {s : Situation}

/-- Ways to local files are measured from the names of the directory that they are read from, and
none of the directories above it is a file. -/
structure Grounded (s : Situation) : Prop where
  textual : Textual s.placement.resourceDirectory
  textual_start : Textual s.start
  names_start : s.start.names = s.placement.resourceDirectory.names
  not_isFile : ∀ ns, ns <+: s.placement.resourceDirectory.names →
    s.tree.isFile (rooted ns) = false

/-- So it is where links are kept, unless the directory lies below a file. -/
theorem grounded_of_preserveLinks (hlinks : s.resolver.preserveLinks = true)
    (hd : Textual s.placement.resourceDirectory)
    (hfile : ∀ p ∈ s.placement.resourceDirectory.clean.ancestors, s.tree.isFile p = false) :
    s.Grounded := by
  have hstart : s.start = s.placement.resourceDirectory := if_pos hlinks
  refine ⟨hd, by rwa [hstart], by rw [hstart], fun ns hns ↦ hfile _ ?_⟩
  rw [Path.clean_of_isAbsolute hd.isAbsolute hd.isText]
  exact Path.rooted_mem_ancestors Path.plain_of_mem_names hns

/-- So it is in a directory that is its own canonical path. -/
theorem grounded_of_canonical (hd : Textual s.placement.resourceDirectory) {c : Path}
    (hdirectory : s.tree.isDirectory s.placement.resourceDirectory)
    (hcanonical : s.tree.canonicalize s.placement.resourceDirectory = .ok c)
    (hsame : s.placement.resourceDirectory.same c) : s.Grounded := by
  obtain ⟨ns, rfl, hplain, -⟩ := FileTree.exists_rooted_of_canonicalize hcanonical
  have hnames := Path.names_of_same hd.isAbsolute hplain hsame
  have htext : ∀ n ∈ ns, IsText n := hnames ▸ Path.isText_of_mem_names hd.isText
  have hself := FileTree.canonicalize_of_canonicalize hcanonical
  obtain ⟨q, hq, hpath⟩ := FileTree.canonicalize_eq_ok_iff.mp hcanonical
  have hreached := FileTree.reached_of_locate hq
  have hqnames := hreached.names_eq_of_path hplain hpath
  have hstart : s.start.names = ns ∧ Textual s.start := by
    unfold start base
    split
    · exact ⟨hnames, hd⟩
    · have hcanonical' : s.tree.canonicalize (rooted s.placement.resourceDirectory.names) =
          .ok (rooted ns) := by rwa [hnames]
      rw [FileTree.canonicalizeExisting_of_canonicalize hd.isAbsolute hd.isText hcanonical']
      exact ⟨Path.names_rooted hplain, Resolver.textual_rooted htext⟩
  refine ⟨hd, hstart.2, hstart.1.trans hnames.symm, fun ms hms ↦ ?_⟩
  rw [hnames] at hms
  by_cases he : ms = ns
  · rw [he, FileTree.isFile_of_canonicalize hcanonical,
      FileTree.not_isFile_of_isDirectory hdirectory]
  · exact FileTree.not_isFile_of_isDirectory
      (hreached.isDirectory_of_prefix (hqnames ▸ hms) (hqnames ▸ he))

/-- The way to a local file is its own relocation. -/
theorem Grounded.wayToLocal_way (h : s.Grounded) (hr : s.resolver.Slashless)
    {specifier v : String} (hv : s.wayToLocal specifier = .ok v) : s.wayToLocal v = .ok v := by
  obtain ⟨file, hfile, w, hw, rfl⟩ := wayToLocal_eq_ok_iff.mp hv
  obtain ⟨hisFile, hsettle, hrooted⟩ := Resolver.settle_of_resolvePath h.textual hr hfile
  have hanchored : Anchored file := h.textual.anchored_of_resolvePath hfile
  have hstart : Anchored s.start := .inl h.textual_start.isAbsolute
  have htext : file.isAbsolute ∧ IsText file.bytes := by
    rw [← Path.isAbsolute_clean_iff hanchored]
    exact (Path.exists_relative_iff hstart hanchored).mp ⟨w, hw⟩
      ((Path.isAbsolute_clean_iff hstart).mpr ⟨h.textual_start.isAbsolute, h.textual_start.isText⟩)
  have hnames : s.start.clean.names = s.placement.resourceDirectory.names ∧
      file.clean.names = file.names :=
    ⟨by rw [Path.names_clean h.textual_start.isAbsolute h.textual_start.isText, h.names_start],
      Path.names_clean htext.1 htext.2⟩
  have hback : s.readBack file = file := by
    rw [readBack, hnames.1, hnames.2,
      Path.reach_wayBetween_self Path.plain_of_mem_names Path.plain_of_mem_names, ← hrooted]
  have hdescent : descent s.start.clean.names file.clean.names ≠ [] := by
    rw [hnames.1, hnames.2]
    intro hnil
    -- without a name to come down by, the directory would lie below the file
    have htake := Path.take_append_descent s.placement.resourceDirectory.names file.names
    rw [hnil, List.append_nil] at htake
    have hno := h.not_isFile file.names (htake ▸ List.take_prefix _ _)
    rw [← hrooted, hisFile] at hno
    cases hno
  refine wayToLocal_eq_ok_iff.mpr ⟨file, ?_, w, hw, rfl⟩
  refine (s.resolvePath_way_iff h.textual hanchored hw).mpr ⟨file, ?_, hsettle⟩
  rw [decide_eq_false hdescent, hback]
  simp [Resolver.lookup, Resolver.asFileOrDirectory, Resolver.asFile, hisFile]

end Situation

end Relocation
