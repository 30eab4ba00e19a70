import Relocation.Proofs.Address.Output
import Relocation.Proofs.Ledger.History
import Relocation.Proofs.Pass.Failure
import Relocation.Proofs.Resolver.Failing

/-!
# Why a specifier cannot be relocated

In a tree whose names are text, a file with an absolute path that is text is always at its place.
Its specifiers are relocated, or the search for one of them ends without a file. Only if the output
directory is no text, there may be no way into it.
-/

namespace Relocation

open Relocation.Path (Anchored dot)
open Resolver (Textual)
open Resolver.Error (OfSearch)
open Text.Utf8 (IsText encode)
open Ledger (History)

/-! ### The place of a file -/

namespace Project

variable {p : Project} {resource output : Path} {placement : Placement}

/-- A file has its place in a project that has a source directory, and in no other. -/
theorem exists_place_iff (h : Textual resource) :
    (∃ placement, p.place resource = .ok placement) ↔ p.source.isSome := by
  cases hs : p.source with
  | none =>
    refine iff_of_false ?_ (by simp)
    rintro ⟨placement, hplace⟩
    simp only [place, checkAbsolute, dif_pos h.isAbsolute, hs] at hplace
    cases hplace
  | some source =>
    refine iff_of_true ?_ rfl
    obtain ⟨way, hway⟩ := (Path.exists_relative_iff (.inl source.property)
      (.inl h.isAbsolute)).mpr fun _ ↦ h.clean.isAbsolute
    exact ⟨_, (place_eq_ok_iff hs).mpr
      ⟨h.isAbsolute, way, hway, _, if_pos p.output.property, rfl⟩⟩

/-- A file has every place that is given and begins at the root. -/
theorem placeAt_eq_ok_iff :
    p.placeAt resource output = .ok placement ↔
      resource.isAbsolute ∧ output.isAbsolute ∧ placement = ⟨resource, output⟩ := by
  unfold placeAt checkAbsolute
  by_cases hr : resource.isAbsolute
  · by_cases ho : output.isAbsolute
    · simp only [dif_pos hr, dif_pos ho]
      exact ⟨fun h ↦ ⟨hr, ho, (Except.ok.inj h).symm⟩, fun ⟨_, _, h⟩ ↦ congrArg _ h.symm⟩
    · simp only [dif_neg ho]
      exact iff_of_false (fun h ↦ by simp only [dif_pos hr] at h; cases h) fun h ↦ ho h.2.1
  · simp only [dif_neg hr]
    exact iff_of_false (fun h ↦ by cases h) fun h ↦ hr h.1

/-- The places of a file in a project: the one that follows from the sources, and those that are
given. -/
inductive Places (p : Project) (resource : Path) (placement : Placement) : Prop where
  | follows (place : p.place resource = .ok placement)
  | given (output : Path) (place : p.placeAt resource output = .ok placement)

/-- At its place a file is read from its own path. The directory that it is written to begins at
the root, or nothing is left of it. -/
theorem Places.cases (h : p.Places resource placement) (hr : Textual resource) :
    placement.resource = resource ∧ (placement.outputDirectory.isAbsolute ∨
      placement.outputDirectory.clean = ⟨dot⟩) := by
  cases h with
  | follows hplace =>
    obtain ⟨source, hs⟩ := Option.isSome_iff_exists.mp
      ((exists_place_iff hr).mp ⟨placement, hplace⟩)
    obtain ⟨-, _, -, output, ho, rfl⟩ := (place_eq_ok_iff hs).mp hplace
    refine ⟨rfl, ?_⟩
    rcases (Path.anchored_of_resolve ho).2 with ha | rfl
    · exact .inl (Path.isAbsolute_parentDirectory ha)
    · exact .inr (show (⟨dot⟩ : Path).parentDirectory.clean = ⟨dot⟩ by decide)
  | given output hplace =>
    obtain ⟨-, ho, rfl⟩ := placeAt_eq_ok_iff.mp hplace
    exact ⟨rfl, .inl (Path.isAbsolute_parentDirectory ho)⟩

end Project

namespace Situation

variable {s : Situation}

/-! ### The ways of a situation -/

/-- Why a specifier cannot be relocated: the search for it ends without a file, or it leads from a
directory that is text into an output directory that is none. -/
inductive Lacks (s : Situation) (specifier : String) : Error → Prop where
  | search {cause : Resolver.Error} (cause_eq : cause.OfSearch) :
      Lacks s specifier (.unresolved specifier s.placement.resource cause)
  | way (copies : s.project.keepsPackages = false) (text : ¬IsText s.project.output.val.bytes)
      (start : s.placement.outputDirectory.clean.isAbsolute) :
      Lacks s specifier (.path (.noRelativePath s.placement.outputDirectory.clean ⟨dot⟩))

/-- There is a way to what is text; to bytes that are no text there may be none. -/
private theorem failsOnly_way {start target : Path} (hs : start.isAbsolute ∨ start.clean = ⟨dot⟩)
    (ht : Anchored target) :
    FailsOnly (fun e ↦ e = .path (.noRelativePath start.clean ⟨dot⟩) ∧ start.clean.isAbsolute ∧
      ¬Textual target) (way start target) := by
  obtain ⟨start', hs', hclean⟩ : ∃ start', Anchored start' ∧ start.clean = start'.clean := by
    rcases hs with hs | hs
    · exact ⟨start, .inl hs, rfl⟩
    · exact ⟨⟨dot⟩, .inr rfl, by rw [hs, Path.clean_dot]⟩
  by_cases hway : start'.clean.isAbsolute → target.clean.isAbsolute
  · obtain ⟨w, hw⟩ := (Path.exists_relative_iff hs' ht).mpr hway
    refine .of_eq_ok (way_eq_ok_iff.mpr ⟨w, ?_, rfl⟩)
    rwa [Path.relative, hclean]
  · obtain ⟨hstart, htarget⟩ := Classical.not_imp.mp hway
    rw [← hclean] at hstart
    have hdot := Path.clean_of_not_isAbsolute_clean ht (Bool.eq_false_iff.mpr htarget)
    rw [way, Path.relative_eq_error hstart hdot]
    exact .error ⟨rfl, hstart, fun htext ↦ htarget htext.clean.isAbsolute⟩

/-- A situation in a tree whose names are text, with the place of a file that is text. -/
structure Fair (s : Situation) : Prop where
  worded : s.tree.Worded
  resource : Textual s.placement.resource
  output : s.placement.outputDirectory.isAbsolute ∨ s.placement.outputDirectory.clean = ⟨dot⟩

namespace Fair

variable {specifier : String} (h : s.Fair)

include h

/-- From where the file is written there is a way to what is text if the output directory is. -/
private theorem failsOnly_way (copies : s.project.keepsPackages = false) {target : Path}
    (ht : Anchored target) (htext : Textual s.project.packageOutput → Textual target) :
    FailsOnly (s.Lacks specifier) (way s.placement.outputDirectory target) := by
  refine (Situation.failsOnly_way h.output ht).mono ?_
  rintro _ ⟨rfl, hstart, hnot⟩
  refine .way copies (fun hout ↦ hnot (htext ?_)) hstart
  exact Textual.join_ofString ⟨s.project.output.property, hout⟩ "npm"

private theorem failsOnly_wayToRuntime (copies : s.project.keepsPackages = false) :
    FailsOnly (s.Lacks specifier) s.wayToRuntime := by
  refine h.failsOnly_way copies (.inl ?_) fun hout ↦ hout.join_ofString _
  exact Path.isAbsolute_join _ (Path.isAbsolute_join _ s.project.output.property)

private theorem failsOnly_wayToPackage (copies : s.project.keepsPackages = false) {file : Path}
    (hf : Textual file) : FailsOnly (s.Lacks specifier) (s.wayToPackage file) := by
  have hroot : s.project.packageRoot.isAbsolute := Path.isAbsolute_join _ s.project.root.property
  have hout : s.project.packageOutput.isAbsolute :=
    Path.isAbsolute_join _ s.project.output.property
  obtain ⟨inside, hinside⟩ := (Path.exists_relative_iff (s.anchored_base hroot)
    (.inl hf.isAbsolute)).mpr fun _ ↦ hf.clean.isAbsolute
  have hcopy : s.project.packageOutput.resolve (.ofString inside) = .ok _ := if_pos hout
  refine (FailsOnly.of_eq_ok (mapError_eq_ok_iff.mpr hinside)).bind fun i hi ↦ ?_
  cases (mapError_eq_ok_iff.mpr hinside).symm.trans hi
  refine (FailsOnly.of_eq_ok (mapError_eq_ok_iff.mpr hcopy)).bind fun copy hc ↦ ?_
  cases (mapError_eq_ok_iff.mpr hcopy).symm.trans hc
  have hway : FailsOnly (s.Lacks specifier) _ :=
    h.failsOnly_way copies (Path.anchored_of_resolve hcopy).2 fun hp ↦
      (hp.join_ofString inside).clean
  exact hway.bind fun _ _ ↦ .ok _

private theorem failsOnly_wayToLocal : FailsOnly (s.Lacks specifier) (s.wayToLocal specifier) := by
  have hd : s.placement.resourceDirectory.isAbsolute := h.resource.parentDirectory.isAbsolute
  refine FailsOnly.bind ?_ fun file hfile ↦ ?_
  · refine .mapError fun e he ↦ .search (Resolver.failsOnly_resolvePath hd e he)
  · have hf := Resolver.textual_of_resolvePath h.worded hd (mapError_eq_ok_iff.mp hfile)
    obtain ⟨w, hw⟩ := (Path.exists_relative_iff (s.anchored_base hd) (.inl hf.isAbsolute)).mpr
      fun _ ↦ hf.clean.isAbsolute
    exact .of_eq_ok (way_eq_ok_iff.mpr ⟨w, hw, rfl⟩)

private theorem findsOnly_textual : s.FindsOnly fun _ ↦ Textual := fun _ _ hfile ↦
  Resolver.textual_of_resolvePackage h.worded hfile

/-- On a ledger that remembers text, a decision fails for lack of something only. -/
theorem lacks_of_run {site : Site} {l l' : Ledger} {e : Error}
    (hl : l.Recalls fun _ ↦ Textual) (hrun : (s.action site specifier).run l = (.error e, l')) :
    s.Lacks specifier e := by
  have hmap {x : Except Error String} (hx : FailsOnly (s.Lacks specifier) x)
      (he : x.map Action.replace = .error e) : s.Lacks specifier e := by
    cases x with
    | ok v => cases he
    | error e' =>
      cases he
      exact hx e rfl
  generalize hanswer : (Except.error e : Except Error Action) = answer at hrun
  cases comes_of_run hrun with
  | dropped | nulled | kept | known => cases hanswer
  | located => exact hmap (h.failsOnly_wayToLocal) hanswer.symm
  | directed =>
    refine hmap ?_ hanswer.symm
    unfold wayToFramework
    split
    · exact .ok _
    · next hk => exact h.failsOnly_wayToRuntime (by simpa using hk)
  | copied _ _ copies finds =>
    refine hmap (h.failsOnly_wayToPackage copies ?_) hanswer.symm
    cases finds with
    | remembered target => exact hl _ _ target
    | found _ resolved => exact h.findsOnly_textual _ _ resolved
  | missing _ _ _ _ unresolved =>
    cases hanswer
    exact .search (Resolver.failsOnly_resolvePackage _ unresolved)

/-- A pass over any module on such a ledger fails for lack of something only. -/
theorem lacks_of_relocate {κ : Type} [Syntax.Dialect κ] {l : Ledger}
    (hl : l.Recalls fun _ ↦ Textual) (t : Syntax.Tree κ) {e : Error}
    (he : ((Pass.relocate s.action t).run l).1.findings.failure = some e) :
    ∃ specifier, s.Lacks specifier e := by
  obtain ⟨ds, ⟨⟨m, f, hfails⟩, -⟩, -⟩ :=
    Pass.stops_visit (Pass.leads_relocate s.action t l) rfl he
  obtain ⟨site, specifier, -, hrun⟩ := hfails.fails
  have hm : m.Recalls fun _ ↦ Textual := by
    refine hfails.decided.preserves (fun {site specifier answer l l'} hrun hl ↦ ?_) hl
    have hkeeps := (keeps_recalls h.findsOnly_textual site specifier).run hl
    rwa [hrun] at hkeeps
  exact ⟨specifier, h.lacks_of_run hm hrun⟩

end Fair

end Situation

namespace Project

/-- In a tree whose names are text, a file with an absolute path that is text has every place that
is given, and a place of its own if there is a source directory. There its specifiers are
relocated, or one of them is not found or leads to a manifest that is none; only into an output
directory that is no text there may be no way. -/
theorem places_and_lacks (p : Project) (r : Resolver) {t : FileTree}
    (ht : t.Worded) {resource : Path} (hr : Textual resource) {es : List Ledger.Event} {l : Ledger}
    (hl : History .empty es l)
    (hes : ∀ s site specifier answer, .decided s site specifier answer ∈ es → s.tree.Worded) :
    (∀ output, output.isAbsolute → p.placeAt resource output = .ok ⟨resource, output⟩) ∧
    ((∃ placement, p.place resource = .ok placement) ↔ p.source.isSome) ∧
    ∀ placement, p.Places resource placement →
      (∀ site specifier e l',
        ((⟨p, r, t, placement⟩ : Situation).action site specifier).run l = (.error e, l') →
          (⟨p, r, t, placement⟩ : Situation).Lacks specifier e) ∧
      ∀ (κ : Type) [Syntax.Dialect κ] (m : Syntax.Tree κ) e,
        ((Pass.relocate (⟨p, r, t, placement⟩ : Situation).action m).run l).1.findings.failure =
          some e → ∃ specifier, (⟨p, r, t, placement⟩ : Situation).Lacks specifier e := by
  refine ⟨fun output ho ↦ placeAt_eq_ok_iff.mpr ⟨hr.isAbsolute, ho, rfl⟩, exists_place_iff hr,
    fun placement hplace ↦ ?_⟩
  obtain ⟨rfl, houtput⟩ := hplace.cases hr
  have hfair : (⟨p, r, t, placement⟩ : Situation).Fair := ⟨ht, hr, houtput⟩
  have hrecalls : l.Recalls fun _ ↦ Textual := by
    refine hl.recalls (fun s _ _ _ he _ _ hfile ↦ ?_) (Ledger.recalls_empty _)
    exact Resolver.textual_of_resolvePackage (hes _ _ _ _ he) hfile
  exact ⟨fun _ _ _ _ hrun ↦ hfair.lacks_of_run hrecalls hrun,
    fun _ _ m _ he ↦ hfair.lacks_of_relocate hrecalls m he⟩

/-- On a ledger that remembers one package, a decision about another one fails because it is not
found. -/
theorem places_and_lacks_of_installed :
    ∃ l e l', l.target? "own" = some (.ofString "/p/node_modules/own/index.js") ∧
      (Situation.installed.action .require "lost").run l = (.error e, l') ∧
      Situation.installed.Lacks "lost" e := by
  have run : (Situation.installed.action .declaration "own").run .empty =
      (.ok (.replace "./npm/own/index.js"), _) :=
    Prod.ext (eq_ok_of_toOption (by decide +kernel)) rfl
  have h := (History.nil .empty).decide run
  have lost : (Situation.installed.action .require "lost").run
      ((Situation.installed.action .declaration "own").run .empty).2 = _ :=
    Situation.Comes.run_eq (.missing _ (by decide +kernel) rfl (by decide +kernel) rfl)
  have ht : Situation.installed.tree.Worded := by decide +kernel
  have hr : Textual (.ofString "/p/a.js") := ⟨by decide, Path.isText_ofString _⟩
  obtain ⟨-, -, hplaces⟩ := places_and_lacks Situation.installed.project
    Situation.installed.resolver ht hr h fun s _ _ _ hs ↦ by
      obtain ⟨rfl, -⟩ := Ledger.Event.decided.inj (List.mem_singleton.mp hs)
      exact ht
  obtain ⟨hlacks, -⟩ := hplaces Situation.installed.placement (.given (.ofString "/p/out/a.js") rfl)
  exact ⟨_, _, _, by decide +kernel, lost, hlacks _ _ _ _ lost⟩

/-- A project whose output directory is no text. -/
def inBytes : Project where
  dependencyRoots := []
  root := ⟨.ofString "/p", .refl true⟩
  output := ⟨⟨[Path.slash, 255]⟩, .refl true⟩
  platform := .wechat

/-- Into an output directory that is no text there is no way, even if all names and both paths of
a file are text. -/
theorem inBytes_lacks_way :
    FileTree.empty.Worded ∧ Textual (.ofString "/p/a.js") ∧ Textual (.ofString "/out/a.js") ∧
      ∃ placement,
        inBytes.placeAt (.ofString "/p/a.js") (.ofString "/out/a.js") = .ok placement ∧
        ((⟨inBytes, {}, .empty, placement⟩ : Situation).action .declaration "rax").run .empty =
          (.error (.path (.noRelativePath (.ofString "/out") ⟨dot⟩)), .empty) :=
  ⟨by decide, ⟨by decide, Path.isText_ofString _⟩, ⟨by decide, Path.isText_ofString _⟩,
    _, rfl, rfl⟩

end Project

end Relocation
