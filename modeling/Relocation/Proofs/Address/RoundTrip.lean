import Relocation.Proofs.Address.Basic

/-!
# Reading local ways back

A local way is measured from the canonical path of a file's directory but read back from the
directory as it is written. It leads back to its target exactly if the target is found where the
way leads by name. That is so wherever the way turns round in a directory whose written path has
the canonical path that the way was measured by; above a link it need not be.
-/

namespace Relocation

open Relocation.Path (Anchored Plain climb commonLength descent markRelative names reach rooted
  wayBetween)
open Resolver (Textual)
open Text.Utf8 (IsText encode)

namespace Situation

variable {s : Situation}

/-- The path that the way to a file is measured from. -/
abbrev start (s : Situation) : Path := s.base s.placement.resourceDirectory

/-- Where the way to a file leads by name from the directory as it is written. -/
def readBack (s : Situation) (file : Path) : Path :=
  rooted (reach s.placement.resourceDirectory.names
    (wayBetween s.start.clean.names file.clean.names))

/-- The way to a file turns round in a directory that its written path leads to. -/
structure TurnsRight (s : Situation) (file : Path) : Prop where
  /-- Both ends of the way are text. -/
  isText_start : IsText s.start.bytes
  isText_file : IsText file.bytes
  /-- As it is written, the directory where the way turns round is one. -/
  isDirectory : s.tree.isDirectory (rooted (s.placement.resourceDirectory.names.take
    (s.placement.resourceDirectory.names.length - climb s.start.names file.names)))
  /-- It is the directory that was measured. -/
  canonical : s.tree.canonicalize (rooted (s.placement.resourceDirectory.names.take
      (s.placement.resourceDirectory.names.length - climb s.start.names file.names))) =
    .ok (rooted (s.start.names.take (commonLength s.start.names file.names)))

/-- A way is read back as what is found where it leads by name. -/
theorem resolvePath_way_iff (hr : Textual s.placement.resourceDirectory) {file : Path}
    (hfile : Anchored file) {w : String} (hw : Path.relative s.start file = .ok w) {g : Path} :
    s.resolver.resolvePath s.tree s.placement.resourceDirectory (markRelative w) = .ok g ↔
      ∃ found, s.resolver.lookup s.tree
          (decide (descent s.start.clean.names file.clean.names = [])) (s.readBack file) =
            .ok (some found) ∧ s.resolver.settle s.tree found = .ok g := by
  have hstart : Anchored s.start := s.anchored_base hr.isAbsolute
  rw [Resolver.resolvePath_eq_ok_iff
    (Path.resolve_markRelative hstart hfile hw hr.isAbsolute hr.isText)]
  have hd : Resolver.isDirectorySpecifier (markRelative w) =
      decide (descent s.start.clean.names file.clean.names = []) := by
    rw [Bool.eq_iff_iff, Resolver.isDirectorySpecifier_markRelative hstart hfile hw,
      decide_eq_true_iff]
  rw [hd]
  rfl

/-- Behind the directory where it turns round, a way comes down to its target. -/
theorem canonicalize_readBack {file found : Path} (hstart : s.start.isAbsolute)
    (hfound : s.tree.canonicalize found = .ok file) (hfile : s.tree.isFile found)
    (h : s.TurnsRight file) :
    descent s.start.clean.names file.clean.names ≠ [] ∧
      s.tree.canonicalize (s.readBack file) = .ok file := by
  have hplain {p : Path} : ∀ n ∈ p.names, Plain n := Path.plain_of_mem_names
  have hcanonical := FileTree.canonicalize_of_canonicalize hfound
  obtain ⟨habsolute, hrooted⟩ : file.isAbsolute ∧ file = rooted file.names := by
    obtain ⟨ts, rfl, hts, -⟩ := FileTree.exists_rooted_of_canonicalize hfound
    exact ⟨Path.isAbsolute_rooted ts, by rw [Path.names_rooted hts]⟩
  rw [readBack, Path.names_clean hstart h.isText_start, Path.names_clean habsolute h.isText_file,
    Path.reach_wayBetween hplain hplain]
  have hnames := Path.take_append_descent s.start.names file.names
  constructor
  · intro hdescent
    -- without a name to come down by, the directory would be the file
    rw [hdescent, List.append_nil] at hnames
    have hturn := h.canonical
    rw [hnames, ← hrooted] at hturn
    rw [← FileTree.isFile_of_canonicalize hfound, FileTree.isFile_of_canonicalize hturn,
      FileTree.not_isFile_of_isDirectory h.isDirectory] at hfile
    cases hfile
  · have hself : s.tree.canonicalize (rooted (s.start.names.take
        (commonLength s.start.names file.names) ++ descent s.start.names file.names)) =
          .ok (rooted (s.start.names.take
            (commonLength s.start.names file.names) ++ descent s.start.names file.names)) := by
      rw [hnames, ← hrooted]
      exact hcanonical
    have happend := FileTree.canonicalize_append
      (fun n hn ↦ (hplain n (List.mem_of_mem_take hn)).noSlash) (by rw [hnames]; exact hplain)
      h.canonical hself
    rwa [hnames, ← hrooted] at happend

section

variable {specifier : String} {file : Path} (hlinks : s.resolver.preserveLinks = false)
  (hd : Textual s.placement.resourceDirectory)
  (hfile : s.resolver.resolvePath s.tree s.placement.resourceDirectory specifier = .ok file)

include hlinks hd

private theorem isAbsolute_start : s.start.isAbsolute := by
  rw [start, base, hlinks, if_neg Bool.false_ne_true]
  exact s.tree.isAbsolute_canonicalizeExisting hd.isAbsolute hd.isText

include hfile

/-- With links followed, the file that a specifier names is the canonical path of a file. -/
private theorem exists_found :
    ∃ found, s.tree.isFile found ∧ s.tree.canonicalize found = .ok file := by
  obtain ⟨target, htarget, -⟩ := hd.exists_resolve specifier
  obtain ⟨found, hfound, hs⟩ := (Resolver.resolvePath_eq_ok_iff htarget).mp hfile
  rw [Resolver.settle_eq_ok_iff, hlinks, if_neg Bool.false_ne_true] at hs
  exact ⟨found, Resolver.isFile_of_lookup hfound, hs⟩

private theorem isAbsolute_file : file.isAbsolute := by
  obtain ⟨found, -, hs⟩ := exists_found hlinks hd hfile
  obtain ⟨ts, rfl, -⟩ := FileTree.exists_rooted_of_canonicalize hs
  exact Path.isAbsolute_rooted ts

/-- There is a way to the file unless only its start is text. -/
private theorem exists_relative_start :
    (∃ w, Path.relative s.start file = .ok w) ↔
      (IsText s.start.bytes → IsText file.bytes) := by
  have hs := isAbsolute_start hlinks hd
  have hf := isAbsolute_file hlinks hd hfile
  rw [Path.exists_relative_iff (.inl hs) (.inl hf), Path.isAbsolute_clean_iff (.inl hs),
    Path.isAbsolute_clean_iff (.inl hf)]
  simp only [hs, hf, true_and]

private theorem leads_back_iff :
    (∃ way, s.wayToLocal specifier = .ok way ∧
        s.resolver.resolvePath s.tree s.placement.resourceDirectory way = .ok file) ↔
      (IsText s.start.bytes → IsText file.bytes) ∧
        ∃ found, s.resolver.lookup s.tree
            (decide (descent s.start.clean.names file.clean.names = [])) (s.readBack file) =
              .ok (some found) ∧ s.tree.canonicalize found = .ok file := by
  have hanchored := hd.anchored_of_resolvePath hfile
  have hback {w : String} (hw : Path.relative s.start file = .ok w) :=
    s.resolvePath_way_iff hd hanchored hw (g := file)
  simp only [Resolver.settle_eq_ok_iff, hlinks, Bool.false_eq_true, if_false] at hback
  rw [← exists_relative_start hlinks hd hfile]
  constructor
  · rintro ⟨way, hway, hresolve⟩
    obtain ⟨file', hfile', w, hw, rfl⟩ := wayToLocal_eq_ok_iff.mp hway
    obtain rfl : file' = file := Except.ok.inj (hfile'.symm.trans hfile)
    exact ⟨⟨w, hw⟩, (hback hw).mp hresolve⟩
  · rintro ⟨⟨w, hw⟩, hfound⟩
    exact ⟨markRelative w, wayToLocal_eq_ok_iff.mpr ⟨file, hfile, w, hw, rfl⟩,
      (hback hw).mpr hfound⟩

end

/-- The way to a local file, measured from the canonical path of the file's directory, leads back
to it from the directory as it is written exactly if there is a way and the file is found where
the way leads by name. That is so if the way turns round in the directory that was measured. -/
theorem wayToLocal_leads_back_iff (s : Situation) (hlinks : s.resolver.preserveLinks = false)
    (habsolute : s.placement.resource.isAbsolute) (htext : IsText s.placement.resource.bytes)
    {specifier : String} {file : Path}
    (hfile : s.resolver.resolvePath s.tree s.placement.resourceDirectory specifier = .ok file) :
    ((∃ way, s.wayToLocal specifier = .ok way ∧
        s.resolver.resolvePath s.tree s.placement.resourceDirectory way = .ok file) ↔
      (IsText s.start.bytes → IsText file.bytes) ∧
        ∃ found, s.resolver.lookup s.tree
            (decide (descent s.start.clean.names file.clean.names = [])) (s.readBack file) =
              .ok (some found) ∧ s.tree.canonicalize found = .ok file) ∧
    (s.TurnsRight file → ∃ way, s.wayToLocal specifier = .ok way ∧
      s.resolver.resolvePath s.tree s.placement.resourceDirectory way = .ok file) := by
  have hd : Textual s.placement.resourceDirectory := Textual.parentDirectory ⟨habsolute, htext⟩
  have hiff := leads_back_iff hlinks hd hfile
  refine ⟨hiff, fun h ↦ hiff.mpr ⟨fun _ ↦ h.isText_file, ?_⟩⟩
  obtain ⟨found, hfound, hcanonical⟩ := exists_found hlinks hd hfile
  obtain ⟨hdescent, hback⟩ :=
    canonicalize_readBack (isAbsolute_start hlinks hd) hcanonical hfound h
  have hisFile : s.tree.isFile (s.readBack file) := by
    rw [← FileTree.isFile_of_canonicalize hback, FileTree.isFile_of_canonicalize hcanonical]
    exact hfound
  refine ⟨s.readBack file, ?_, hback⟩
  rw [decide_eq_false hdescent]
  simp [Resolver.lookup, Resolver.asFileOrDirectory, Resolver.asFile, hisFile]

/-- The place of a file in a directory that is a link to one further down. -/
def linkedDown : Situation where
  project :=
    { dependencyRoots := []
      root := ⟨.ofString "/p", .refl true⟩
      output := ⟨.ofString "/out", .refl true⟩
      platform := .wechat }
  resolver := {}
  tree :=
    ⟨[(encode "p", .directory
      [(encode "a", .directory [(encode "b", .directory [(encode "f.js", .file [])])]),
        (encode "link", .link (.ofString "/p/a/b")),
        (encode "x.js", .file [])])]⟩
  placement := ⟨.ofString "/p/link/f.js", .ofString "/out/f.js"⟩

/-- In a directory that is a link to one further down, the way to a file beside the given one leads
back to the file. -/
theorem wayToLocal_leads_back_in_linkedDown :
    ∃ way, linkedDown.wayToLocal "./f" = .ok way ∧
      linkedDown.resolver.resolvePath linkedDown.tree linkedDown.placement.resourceDirectory way =
        .ok (.ofString "/p/a/b/f.js") :=
  (wayToLocal_leads_back_iff linkedDown rfl (by decide) (Path.isText_ofString "/p/link/f.js")
    (eq_ok_of_toOption (by decide +kernel))).2
    ⟨⟨"/p/a/b", by decide +kernel⟩, Path.isText_ofString "/p/a/b/f.js", by decide +kernel,
      by decide +kernel⟩

/-- Above the link, the way that is measured from further down leads past its target. -/
theorem wayToLocal_leads_astray_from_linkedDown :
    (linkedDown.resolver.preserveLinks = false ∧
      linkedDown.tree.isDirectory linkedDown.placement.resourceDirectory ∧
      linkedDown.resolver.resolvePath linkedDown.tree linkedDown.placement.resourceDirectory
        "../x" = .ok (.ofString "/p/x.js")) ∧
    linkedDown.wayToLocal "../x" = .ok "../../x.js" ∧
    ∀ file, linkedDown.resolver.resolvePath linkedDown.tree
      linkedDown.placement.resourceDirectory "../../x.js" ≠ .ok file := by
  refine ⟨⟨rfl, by decide +kernel, eq_ok_of_toOption (by decide +kernel)⟩,
    eq_ok_of_toOption (by decide +kernel), fun file h ↦ ?_⟩
  have hnone : (linkedDown.resolver.resolvePath linkedDown.tree
      linkedDown.placement.resourceDirectory "../../x.js").toOption = none := by
    decide +kernel
  rw [h] at hnone
  cases hnone

end Situation

end Relocation
