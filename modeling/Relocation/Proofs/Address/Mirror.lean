import Relocation.Proofs.Address.Basic
import Relocation.Proofs.Ledger.Invariant

/-!
# Ways to copies of packages

A package's file is addressed where its way from the directory of packages leads from the
directory that packages are copied to. That address lies in the latter whenever the file lies in
the former. A file that was found elsewhere, in a directory of packages further up or through a
link, is addressed outside, unless the way that leads up out of the one comes down into the other
again by its very names.
-/

namespace Relocation

open Relocation.Path (Anchored GoesOn IsBelow Plain climb descent dot markRelative names reach
  rooted wayBetween)
open Resolver (Textual)
open Text.Utf8 (IsText encode)

namespace Situation

variable {s : Situation}

/-- The directory that a package's file is measured from. -/
abbrev packageStart (s : Situation) : Path := s.base s.project.packageRoot

/-- The directory that packages' places are measured from begins at the root, or is the clean form
of one that is no text. -/
theorem anchored_packageStart (s : Situation) : Anchored s.packageStart :=
  s.anchored_base (Path.isAbsolute_join _ s.project.root.property)

/-- The names that a package's file is addressed by. -/
def copyNames (s : Situation) (file : Path) : List Name :=
  if s.packageStart.clean.isAbsolute = false ∧ file.clean.isAbsolute then file.clean.names
  else reach s.project.packageOutput.names
    (wayBetween s.packageStart.clean.names file.clean.names)

/-- As far as the way to a package's file leads up, and so out of the directory of the copies, it
comes down again by the names of that directory, and further. Where there is no such way, the file
itself lies in that directory. -/
def ComesBack (s : Situation) (file : Path) : Prop :=
  if s.packageStart.clean.isAbsolute then
    GoesOn (s.project.packageOutput.names.drop (s.project.packageOutput.names.length -
      climb s.packageStart.clean.names file.clean.names))
      (descent s.packageStart.clean.names file.clean.names)
  else GoesOn s.project.packageOutput.names file.clean.names

/-- The address of a package's file lies in the directory that packages are copied to. -/
structure CopiesInside (s : Situation) (file : Path) : Prop where
  /-- There is a directory that the address is read from. -/
  isAbsolute : s.placement.outputDirectory.isAbsolute
  isText : IsText s.placement.outputDirectory.bytes
  /-- There is a directory that packages are copied to. -/
  isText_packageOutput : IsText s.project.packageOutput.bytes
  comesBack : s.ComesBack file

/-- The copy lies in the directory of the copies if the way comes down into it. -/
theorem comesBack_iff {file : Path} (hfile : Anchored file) :
    s.ComesBack file ↔ GoesOn s.project.packageOutput.names (s.copyNames file) := by
  unfold ComesBack copyNames
  cases hs : s.packageStart.clean.isAbsolute with
  | true =>
    rw [if_pos rfl, if_neg (by simp), Path.goesOn_reach_wayBetween_iff Path.plain_of_mem_names
      Path.plain_of_mem_names]
  | false =>
    rw [if_neg Bool.false_ne_true]
    cases hf : file.clean.isAbsolute with
    | true => rw [if_pos ⟨rfl, rfl⟩]
    | false =>
      -- nothing goes on behind the directory: the file has no names
      rw [if_neg (by simp), Path.names_clean_of_not_isAbsolute s.anchored_packageStart hs,
        Path.names_clean_of_not_isAbsolute hfile hf, Path.wayBetween_nil_left, Path.reach_nil]
      refine iff_of_false ?_ fun h ↦ h.2 rfl
      rintro ⟨hpre, hne⟩
      exact hne (List.prefix_nil.mp hpre)

/-- What lies below the directory of packages is addressed below the directory of the copies. -/
theorem comesBack_of_isBelow {file : Path} (hfile : Anchored file)
    (h : IsBelow file.clean s.packageStart.clean) : s.ComesBack file := by
  obtain ⟨hs, -, xs, hxs, hne⟩ := Path.exists_names_of_isBelow s.anchored_packageStart hfile h
  rw [ComesBack, if_pos hs, ← hxs, Path.climb_append_right, Path.descent_append_right,
    Nat.sub_zero, List.drop_length]
  exact ⟨List.nil_prefix, Ne.symm hne⟩

/-- The directory of the output that packages are copied to begins at the root. -/
theorem isAbsolute_packageOutput (s : Situation) : s.project.packageOutput.isAbsolute :=
  Path.isAbsolute_join _ s.project.output.property

/-- From a directory that is no text, a relative way leads below nothing. -/
private theorem not_isBelow_of_resolve {base q p : Path} {way : String}
    (hw : (Path.ofString way).isAbsolute = false) (ht : ¬IsText base.bytes)
    (hq : base.resolve (.ofString way) = .ok q) (hp : Anchored p) : ¬IsBelow q p.clean := by
  rw [Path.resolve, if_pos (Path.anchored_of_resolve hq).1] at hq
  have hj : ¬IsText (base.join (.ofString way)).bytes := fun h ↦
    ht ((Path.isText_join_iff hw).mp h).1
  rw [← Except.ok.inj hq, Path.clean_of_not_isText hj]
  exact Path.not_dot_isBelow hp

/-- Where all is text, the way to a package's file leads to its copy. -/
theorem resolve_wayToPackage {file : Path} (hfile : Anchored file) {inside w : String}
    {copy : Path} (hi : Path.relative s.packageStart file = .ok inside)
    (hc : s.project.packageOutput.resolve (.ofString inside) = .ok copy)
    (hw : Path.relative s.placement.outputDirectory copy = .ok w)
    (hn : IsText s.project.packageOutput.bytes)
    (ho : Textual s.placement.outputDirectory) :
    s.placement.outputDirectory.resolve (.ofString (markRelative w)) =
      .ok (rooted (s.copyNames file)) ∧ ∀ n ∈ s.copyNames file, Plain n := by
  have hoN : Textual s.project.packageOutput := ⟨s.isAbsolute_packageOutput, hn⟩
  have hplain : ∀ n ∈ s.copyNames file, Plain n := by
    unfold copyNames
    split
    · exact Path.plain_of_mem_names
    · exact Path.plain_of_mem_reach Path.plain_of_mem_names fun n hn ↦
        (Path.solid_of_mem_wayBetween _ Path.plain_of_mem_names n hn).2
  have hcopy : Textual copy := by
    rw [Path.resolve, if_pos hoN.isAbsolute] at hc
    rw [← Except.ok.inj hc]
    exact (hoN.join_ofString inside).clean
  have hnames : copy.names = s.copyNames file := by
    rw [Path.resolve_relative s.anchored_packageStart hfile hi hoN.isAbsolute hoN.isText] at hc
    rw [← Except.ok.inj hc]
    exact Path.names_rooted hplain
  refine ⟨?_, hplain⟩
  rw [Path.resolve_markRelative (.inl ho.isAbsolute) (.inl hcopy.isAbsolute) hw ho.isAbsolute
    ho.isText, Path.names_clean ho.isAbsolute ho.isText,
    Path.names_clean hcopy.isAbsolute hcopy.isText, hnames,
    Path.reach_wayBetween_self Path.plain_of_mem_names hplain]

/-- An address lies in the directory of the copies exactly if the copy does. -/
theorem wayToPackage_isBelow_iff {file : Path} (hfile : Anchored file) {v : String}
    (hn : s.project.normalize = id) (h : s.wayToPackage file = .ok v) :
    (∃ q, s.placement.outputDirectory.resolve (.ofString v) = .ok q ∧
      IsBelow q s.project.packageOutput.clean) ↔ s.CopiesInside file := by
  obtain ⟨inside, hi, copy, hc, w, hw, rfl⟩ := wayToPackage_eq_ok_iff.mp h
  rw [hn, id]
  have hN : Anchored s.project.packageOutput := .inl s.isAbsolute_packageOutput
  have hresolve := fun hnt hot ↦ s.resolve_wayToPackage hfile hi hc hw hnt hot
  have hclean : IsText s.project.packageOutput.bytes →
      s.project.packageOutput.clean = rooted s.project.packageOutput.names :=
    Path.clean_of_isAbsolute s.isAbsolute_packageOutput
  constructor
  · rintro ⟨q, hq, hbelow⟩
    obtain ⟨ho, hqa⟩ := Path.anchored_of_resolve hq
    have hot : IsText s.placement.outputDirectory.bytes := by
      refine Classical.byContradiction fun hot ↦ ?_
      exact not_isBelow_of_resolve (Path.isAbsolute_ofString_markRelative (.inl ho)
        (Path.anchored_of_resolve hc).2 hw) hot hq hN hbelow
    have hnt : IsText s.project.packageOutput.bytes := by
      refine Classical.byContradiction fun hnt ↦ ?_
      rw [Path.clean_of_not_isText hnt] at hbelow
      exact Path.not_isBelow_dot hqa hbelow
    obtain ⟨hr, hplain⟩ := hresolve hnt ⟨ho, hot⟩
    rw [Except.ok.inj (hq.symm.trans hr), hclean hnt,
      Path.isBelow_rooted hplain Path.plain_of_mem_names] at hbelow
    exact ⟨ho, hot, hnt, (comesBack_iff hfile).mpr hbelow⟩
  · intro hin
    obtain ⟨hr, hplain⟩ := hresolve hin.isText_packageOutput ⟨hin.isAbsolute, hin.isText⟩
    refine ⟨_, hr, ?_⟩
    rw [hclean hin.isText_packageOutput, Path.isBelow_rooted hplain Path.plain_of_mem_names]
    exact (comesBack_iff hfile).mp hin.comesBack

/-- The way that a package specifier is relocated to leads into the directory of the copies
exactly if the way to the package's file does not leave the directory of packages, or comes back.
Files below the directory of packages are so addressed. -/
theorem relocatePackage_isBelow_iff (s : Situation) {l l' : Ledger} (hl : l.Resolved)
    (hn : s.project.normalize = id) {specifier v : String}
    (h : (s.relocatePackage specifier).run l = (.ok v, l')) :
    ∃ file, l'.target? specifier = some file ∧
      ((∃ q, s.placement.outputDirectory.resolve (.ofString v) = .ok q ∧
        IsBelow q s.project.packageOutput.clean) ↔ s.CopiesInside file) ∧
      (IsBelow file.clean s.packageStart.clean → s.ComesBack file) := by
  obtain ⟨file, htarget, hfile, hway⟩ : ∃ file, l'.target? specifier = some file ∧
      Anchored file ∧ s.wayToPackage file = .ok v := by
    unfold relocatePackage at h
    simp only [Ledger.Program.run] at h
    cases ht : l.target? specifier with
    | some file =>
      simp only [ht, Ledger.Program.run_pure, Prod.mk.injEq] at h
      obtain ⟨hway, rfl⟩ := h
      obtain ⟨r, t, searchPaths, hr⟩ := hl specifier file ht
      exact ⟨file, ht, Resolver.anchored_of_resolvePackage hr, hway⟩
    | none =>
      cases hr : s.resolver.resolvePackage s.tree specifier s.project.searchPaths with
      | error e => simp [ht, hr] at h
      | ok file =>
        simp only [ht, hr, Ledger.Program.run, Ledger.Program.run_pure, Prod.mk.injEq] at h
        obtain ⟨hway, rfl⟩ := h
        exact ⟨file, Ledger.target?_remember_self .., Resolver.anchored_of_resolvePackage hr, hway⟩
  exact ⟨file, htarget, wayToPackage_isBelow_iff hfile hn hway, comesBack_of_isBelow hfile⟩

/-- A project with one package of its own and one that is installed further up. -/
def hoisting : Situation where
  project :=
    { dependencyRoots := [⟨.ofString "/p/node_modules", .refl true⟩]
      root := ⟨.ofString "/p", .refl true⟩
      output := ⟨.ofString "/p/out", .refl true⟩
      platform := .wechat }
  resolver := {}
  tree :=
    ⟨[(encode "node_modules", .directory
        [(encode "up", .directory [(encode "index.js", .file [])])]),
      (encode "p", .directory [(encode "node_modules", .directory
        [(encode "own", .directory [(encode "index.js", .file [])])])])]⟩
  placement := ⟨.ofString "/p/a.js", .ofString "/p/out/a.js"⟩

/-- The project's own package is addressed below the directory that packages are copied to. -/
theorem relocatePackage_isBelow_of_own :
    ∃ v l' q, (hoisting.relocatePackage "own").run .empty = (.ok v, l') ∧
      hoisting.placement.outputDirectory.resolve (.ofString v) = .ok q ∧
      IsBelow q hoisting.project.packageOutput.clean := by
  have h : (hoisting.relocatePackage "own").run .empty =
      (.ok "./npm/own/index.js",
        Ledger.empty.remember "own" (.ofString "/p/node_modules/own/index.js")) :=
    Prod.ext (eq_ok_of_toOption (by decide +kernel)) (by decide +kernel)
  obtain ⟨file, hfile, hiff, hback⟩ :=
    relocatePackage_isBelow_iff hoisting Ledger.resolved_empty rfl h
  rw [Ledger.target?_remember_self] at hfile
  obtain rfl := Option.some.inj hfile
  obtain ⟨q, hq, hbelow⟩ := hiff.mpr ⟨by decide, Path.isText_ofString "/p/out",
    Path.isText_ofString "/p/out/npm", hback ⟨by decide +kernel, by decide +kernel⟩⟩
  exact ⟨_, _, q, h, hq, hbelow⟩

/-- A package that is installed further up is addressed outside the directory of the copies. -/
theorem relocatePackage_leaves_copies_of_up :
    (hoisting.relocatePackage "up").run .empty = (.ok "../node_modules/up/index.js",
        Ledger.empty.remember "up" (.ofString "/node_modules/up/index.js")) ∧
      hoisting.placement.outputDirectory.resolve (.ofString "../node_modules/up/index.js") =
        .ok (.ofString "/p/node_modules/up/index.js") ∧
      hoisting.project.packageOutput.clean = .ofString "/p/out/npm" ∧
      ¬IsBelow (.ofString "/p/node_modules/up/index.js") (.ofString "/p/out/npm") :=
  ⟨Prod.ext (eq_ok_of_toOption (by decide +kernel)) (by decide +kernel),
    eq_ok_of_toOption (by decide +kernel), by decide +kernel,
    fun h ↦ absurd h.1 (by decide)⟩

end Situation

end Relocation
