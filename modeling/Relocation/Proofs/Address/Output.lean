import Relocation.Proofs.Address.Basic

/-!
# Local ways in the output

Files are written where their ways from the source directory lead from the output directory. A way
between two source files is the same between the places that they are written to, wherever the
target stands: the way from a directory below the source directory is, up to the names below it,
the way from the source directory.
-/

namespace Relocation

open Relocation.Path (Anchored Plain IsBelow dot markRelative names reach rooted slash wayBetween)
open Resolver (Textual)
open Text.Utf8 (IsText encode)

namespace Project

variable {project : Project} {source : AbsolutePath}

/-- A file is written where its way from the source directory leads from the output directory. -/
theorem place_eq_ok_iff (hsource : project.source = some source) {p : Path}
    {placement : Placement} :
    project.place p = .ok placement ↔
      p.isAbsolute ∧ ∃ way, Path.relative source.val p = .ok way ∧
        ∃ output, project.output.val.resolve (.ofString way) = .ok output ∧
          placement = ⟨p, output⟩ := by
  unfold place checkAbsolute
  by_cases ha : p.isAbsolute
  · simp only [dif_pos ha, hsource, bind_eq_ok_iff, mapError_eq_ok_iff]
    constructor
    · rintro ⟨_, hp, way, hw, output, ho, he⟩
      cases hp
      exact ⟨ha, way, hw, output, ho, (Except.ok.inj he).symm⟩
    · rintro ⟨-, way, hw, output, ho, rfl⟩
      exact ⟨⟨p, ha⟩, rfl, way, hw, output, ho, rfl⟩
  · rw [dif_neg ha]
    exact iff_of_false (fun h ↦ by cases h) fun h ↦ ha h.1

/-- The place of a file, if all paths are text. -/
theorem place_of_textual (hsource : project.source = some source) (hs : Textual source.val)
    (ho : Textual project.output.val) {p : Path} (hp : Textual p) :
    project.place p = .ok
      ⟨p, rooted (reach project.output.val.names (wayBetween source.val.names p.names))⟩ := by
  obtain ⟨way, hway, -⟩ := Path.relative_eq_ok hs.isAbsolute hs.isText hp.isAbsolute hp.isText
  have hr := Path.resolve_relative (.inl hs.isAbsolute) (.inl hp.isAbsolute) hway ho.isAbsolute
    ho.isText
  have ha := (Path.isAbsolute_clean_iff (.inl hs.isAbsolute)).mpr ⟨hs.isAbsolute, hs.isText⟩
  rw [if_neg (fun h ↦ by simp [ha] at h), Path.names_clean hs.isAbsolute hs.isText,
    Path.names_clean hp.isAbsolute hp.isText] at hr
  exact (place_eq_ok_iff hsource).mpr ⟨hp.isAbsolute, way, hway, _, hr, rfl⟩

end Project

namespace Situation

/-- Where links are kept or there are none, ways are measured from the names of a directory. -/
theorem names_base {s : Situation} (hl : s.resolver.preserveLinks ∨ s.tree.Linkless) {p : Path}
    (hp : Textual p) : Textual (s.base p) ∧ (s.base p).names = p.names := by
  unfold base
  split
  · exact ⟨hp, rfl⟩
  · next hk =>
    rw [FileTree.canonicalizeExisting_of_linkless (hl.resolve_left hk) hp.isAbsolute hp.isText,
      Path.names_rooted Path.plain_of_mem_names]
    exact ⟨Resolver.textual_rooted (Path.isText_of_mem_names hp.isText), rfl⟩

/-- The way to a local file from a directory that is text leads from any other such directory
along the way between the names. -/
theorem exists_wayToLocal {s : Situation} (hl : s.resolver.preserveLinks ∨ s.tree.Linkless)
    (hd : Textual s.placement.resourceDirectory) {specifier : String} {file : Path}
    (hfile : s.resolver.resolvePath s.tree s.placement.resourceDirectory specifier = .ok file)
    {base : Path} (hbase : Textual base) :
    ∃ way, s.wayToLocal specifier = .ok way ∧
      base.resolve (.ofString way) = .ok (rooted (reach base.names
        (wayBetween s.placement.resourceDirectory.names file.names))) := by
  obtain ⟨hb, hnames⟩ := s.names_base hl hd
  have hf := hd.of_resolvePath hl hfile
  obtain ⟨way, hway, -⟩ := Path.relative_eq_ok hb.isAbsolute hb.isText hf.isAbsolute hf.isText
  refine ⟨markRelative way, wayToLocal_eq_ok_iff.mpr ⟨file, hfile, way, hway, rfl⟩, ?_⟩
  rw [Path.resolve_markRelative (.inl hb.isAbsolute) (.inl hf.isAbsolute) hway hbase.isAbsolute
    hbase.isText, Path.names_clean hb.isAbsolute hb.isText, hnames,
    Path.names_clean hf.isAbsolute hf.isText]

section

variable {s : Situation} {source : AbsolutePath}

/-- A clean file below something lies below text and is text itself. -/
private theorem textual_of_isBelow {p q : Path} (hq : q.isAbsolute) (habsolute : p.isAbsolute)
    (hclean : p.clean = p) (hbelow : IsBelow p q.clean) : Textual p ∧ Textual q := by
  constructor
  · refine ⟨habsolute, Classical.byContradiction fun ht ↦ ?_⟩
    rw [← hclean, Path.clean_of_not_isText ht] at habsolute
    exact absurd habsolute (by decide)
  · refine ⟨hq, Classical.byContradiction fun ht ↦ ?_⟩
    rw [Path.clean_of_not_isText ht] at hbelow
    exact Path.not_isBelow_dot (.inl habsolute) hbelow

private theorem plain_below {p : Path} {xs : List Name} (hxs : ∀ x ∈ xs, Plain x) :
    ∀ n ∈ p.names ++ xs, Plain n :=
  Path.plain_of_mem_names_append hxs

private theorem textual_below {p : Path} (hp : Textual p) {xs : List Name}
    (hxs : ∀ x ∈ xs, Plain x ∧ IsText x) : Textual (rooted (p.names ++ xs)) := by
  refine Resolver.textual_rooted fun n hn ↦ ?_
  rcases List.mem_append.mp hn with hn | hn
  · exact Path.isText_of_mem_names hp.isText n hn
  · exact (hxs n hn).2

/-- The directories that a file below the source directory is read from and written to lie below
the source and the output directory by the same names. -/
private theorem exists_directories (hsource : s.project.source = some source)
    (hs : Textual source.val) (ho : Textual s.project.output.val)
    (hr : Textual s.placement.resource)
    (hclean : s.placement.resource.clean = s.placement.resource)
    (hbelow : IsBelow s.placement.resource source.val.clean)
    (hplace : s.project.place s.placement.resource = .ok s.placement) :
    ∃ xs : List Name, (∀ x ∈ xs, Plain x ∧ IsText x) ∧
      s.placement.resourceDirectory = rooted (source.val.names ++ xs) ∧
      s.placement.outputDirectory = rooted (s.project.output.val.names ++ xs) := by
  have hrooted : s.placement.resource = rooted s.placement.resource.names :=
    hclean.symm.trans (Path.clean_of_isAbsolute hr.isAbsolute hr.isText)
  obtain ⟨xs, hxs, hne⟩ :
      ∃ xs, source.val.names ++ xs = s.placement.resource.names ∧ xs ≠ [] := by
    rw [hrooted, Path.clean_of_isAbsolute hs.isAbsolute hs.isText,
      Path.isBelow_rooted Path.plain_of_mem_names Path.plain_of_mem_names] at hbelow
    obtain ⟨⟨xs, hxs⟩, hne⟩ := hbelow
    refine ⟨xs, hxs, fun h0 ↦ hne ?_⟩
    rw [← hxs, h0, List.append_nil]
  have hplain : ∀ x ∈ xs, Plain x := fun x hx ↦
    Path.plain_of_mem_names x (hxs ▸ List.mem_append_right _ hx)
  have htext : ∀ x ∈ xs, IsText x := fun x hx ↦
    Path.isText_of_mem_names hr.isText x (hxs ▸ List.mem_append_right _ hx)
  refine ⟨xs.dropLast, fun x hx ↦ ?_, ?_, ?_⟩
  · have hm := List.mem_of_mem_dropLast hx
    exact ⟨hplain x hm, htext x hm⟩
  · rw [Placement.resourceDirectory, hrooted, Path.parentDirectory_rooted Path.plain_of_mem_names,
      ← hxs, List.dropLast_append_of_ne_nil hne]
  · have hp := Project.place_of_textual hsource hs ho hr
    rw [hplace, ← hxs, Path.wayBetween_append_right, Path.reach_of_plain hplain] at hp
    rw [Placement.outputDirectory, congrArg Placement.output (Except.ok.inj hp),
      Path.parentDirectory_rooted (plain_below hplain), List.dropLast_append_of_ne_nil hne]

end

/-- A local way that is computed in the source directory leads in the output directory to where
its target is written, if the output directory is text. -/
theorem wayToLocal_resolves_to_output (s : Situation) {source : AbsolutePath}
    (hsource : s.project.source = some source) (hout : IsText s.project.output.val.bytes)
    (habsolute : s.placement.resource.isAbsolute)
    (hclean : s.placement.resource.clean = s.placement.resource)
    (hbelow : IsBelow s.placement.resource source.val.clean)
    (hplace : s.project.place s.placement.resource = .ok s.placement)
    (hlinks : s.resolver.preserveLinks ∨ s.tree.Linkless) {specifier : String} {file : Path}
    (hfile : s.resolver.resolvePath s.tree s.placement.resourceDirectory specifier = .ok file) :
    ∃ way target, s.wayToLocal specifier = .ok way ∧ s.project.place file = .ok target ∧
      s.placement.outputDirectory.resolve (.ofString way) = .ok target.output := by
  have ho : Textual s.project.output.val := ⟨s.project.output.property, hout⟩
  obtain ⟨hr, hs⟩ := textual_of_isBelow source.property habsolute hclean hbelow
  obtain ⟨xs, hxs, hresource, houtput⟩ :=
    exists_directories hsource hs ho hr hclean hbelow hplace
  have hd : Textual s.placement.resourceDirectory := hr.parentDirectory
  have hf := hd.of_resolvePath hlinks hfile
  obtain ⟨way, hway, hresolve⟩ :=
    exists_wayToLocal hlinks hd hfile (houtput ▸ textual_below ho hxs)
  refine ⟨way, _, hway, Project.place_of_textual hsource hs ho hf, ?_⟩
  rw [hresolve, houtput, hresource, Path.names_rooted (plain_below fun x hx ↦ (hxs x hx).1),
    Path.names_rooted (plain_below fun x hx ↦ (hxs x hx).1),
    Path.reach_wayBetween_append Path.plain_of_mem_names (fun x hx ↦ (hxs x hx).1)
      Path.plain_of_mem_names]

/-- The place of one of two files that stand in the source directory beside each other. -/
def siblings (output : AbsolutePath) (written : Path) : Situation where
  project :=
    { dependencyRoots := []
      root := ⟨.ofString "/", .refl true⟩
      output
      source := some ⟨.ofString "/s", .refl true⟩
      platform := .wechat }
  resolver := {}
  tree :=
    ⟨[(encode "s", .directory [(encode "a.js", .file []), (encode "b.js", .file [])])]⟩
  placement := ⟨.ofString "/s/a.js", written⟩

/-- The place of one of the siblings in an output directory that is text. -/
def siblingsInText : Situation :=
  siblings ⟨.ofString "/out", .refl true⟩ (.ofString "/out/a.js")

/-- In an output directory that is text, the way from one sibling leads to where the other is
written. -/
theorem wayToLocal_resolves_to_output_of_siblings :
    ∃ way target, siblingsInText.wayToLocal "./b" = .ok way ∧
      siblingsInText.project.place (.ofString "/s/b.js") = .ok target ∧
      siblingsInText.placement.outputDirectory.resolve (.ofString way) = .ok target.output :=
  wayToLocal_resolves_to_output siblingsInText rfl (Path.isText_ofString "/out")
    (by decide) (by decide) ⟨by decide, by decide⟩ (eq_ok_of_toOption (by decide +kernel))
    (.inr (by decide)) (eq_ok_of_toOption (by decide +kernel))

/-- The place of one of the siblings in an output directory that is no text. -/
def siblingsInBytes : Situation := siblings ⟨⟨[slash, 255]⟩, .refl true⟩ ⟨dot⟩

/-- In an output directory that is no text, ways lead nowhere: what is written there has no place
but the clean form of bytes that are no text. -/
theorem wayToLocal_fails_in_output_of_bytes :
    (siblingsInBytes.placement.resource.isAbsolute ∧
      siblingsInBytes.placement.resource.clean = siblingsInBytes.placement.resource ∧
      IsBelow siblingsInBytes.placement.resource (Path.ofString "/s").clean ∧
      siblingsInBytes.project.place siblingsInBytes.placement.resource =
        .ok siblingsInBytes.placement ∧
      siblingsInBytes.tree.Linkless ∧
      siblingsInBytes.resolver.resolvePath siblingsInBytes.tree
        siblingsInBytes.placement.resourceDirectory "./b" = .ok (.ofString "/s/b.js")) ∧
    ¬∃ way target, siblingsInBytes.wayToLocal "./b" = .ok way ∧
      siblingsInBytes.project.place (.ofString "/s/b.js") = .ok target ∧
      siblingsInBytes.placement.outputDirectory.resolve (.ofString way) = .ok target.output := by
  refine ⟨⟨by decide, by decide, ⟨by decide, by decide⟩, eq_ok_of_toOption (by decide +kernel),
    by decide, eq_ok_of_toOption (by decide +kernel)⟩, ?_⟩
  rintro ⟨way, target, -, -, h⟩
  rw [Path.resolve, if_neg (by decide)] at h
  cases h

end Situation

end Relocation
