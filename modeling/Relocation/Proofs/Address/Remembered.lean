import Relocation.Proofs.Address.Mirror
import Relocation.Proofs.Ledger.History

/-!
# Ways to remembered packages

Once the file of a package is remembered it is not looked for again, whatever becomes of the files.
The way to its copy is computed anew each time, though, and measured from where the directory of
packages is then. It stays the same exactly as long as the file is addressed by the same names.
-/

namespace Relocation

open Relocation.Path (Anchored markRelative rooted)
open Resolver (Textual)
open Text.Utf8 (IsText encode)
open Ledger (History)

namespace Situation

variable {s : Situation} {site : Site} {specifier v : String} {l m l' : Ledger} {file : Path}
  {answer : Except Error Action}

/-! ### What is decided about a package that was found -/

private theorem Finds.target?_eq (h : s.Finds specifier l file m) :
    m.target? specifier = some file := by
  cases h with
  | remembered target => exact target
  | found => exact Ledger.target?_remember_self ..

private theorem Finds.unique {file' : Path} {m' : Ledger} (h : s.Finds specifier l file m)
    (h' : s.Finds specifier l file' m') : file' = file ∧ m' = m := by
  cases h with
  | remembered target =>
    cases h' with
    | remembered target' => exact ⟨Option.some.inj (target'.symm.trans target), rfl⟩
    | found target' => cases target'.symm.trans target
  | found target resolved =>
    cases h' with
    | remembered target' => cases target'.symm.trans target
    | found _ resolved' =>
      obtain rfl := Except.ok.inj (resolved'.symm.trans resolved)
      exact ⟨rfl, rfl⟩

/-- A decision about a package is the way to the copy of its file, and notes it. -/
theorem Comes.eq_of_finds (h : s.Comes specifier l site answer l')
    (class_eq : s.classOf specifier = .package) (copies : s.project.keepsPackages = false)
    (finds : s.Finds specifier l file m) :
    answer = (s.wayToPackage file).map .replace ∧ l' = m.noting (s.wayToPackage file) := by
  cases h with
  | dropped hc | nulled hc | known hc | located _ hc => cases hc.symm.trans class_eq
  | kept _ _ keeps => cases keeps.symm.trans copies
  | directed _ hc => simp [class_eq] at hc
  | copied _ _ _ finds' =>
    obtain ⟨rfl, rfl⟩ := finds.unique finds'
    exact ⟨rfl, rfl⟩
  | missing _ _ _ target unresolved =>
    cases finds with
    | remembered target' => cases target.symm.trans target'
    | found _ resolved => cases unresolved.symm.trans resolved

/-- A decision about a package that succeeds has found its file. -/
theorem Comes.exists_finds (h : s.Comes specifier l site (.ok (.replace v)) l')
    (class_eq : s.classOf specifier = .package) (copies : s.project.keepsPackages = false) :
    ∃ file, l'.target? specifier = some file ∧ s.wayToPackage file = .ok v := by
  generalize hanswer : Except.ok (Action.replace v) = answer at h
  cases h with
  | dropped hc | nulled hc | known hc | located _ hc => cases hc.symm.trans class_eq
  | kept _ _ keeps => cases keeps.symm.trans copies
  | directed _ hc => simp [class_eq] at hc
  | copied _ _ _ finds =>
    refine ⟨_, ?_, map_replace_eq_ok_iff.mp hanswer.symm⟩
    rw [Ledger.target?_noting, finds.target?_eq]
  | missing => cases hanswer

/-! ### Ways from two states of the files -/

section

variable {s' : Situation} (hproject : s'.project = s.project)
  (hplacement : s'.placement = s.placement)

include hproject hplacement

/-- Only the start of the way to a package's file depends on the files that there are. -/
theorem wayToPackage_congr (hstart : s'.packageStart.clean = s.packageStart.clean) :
    s'.wayToPackage file = s.wayToPackage file := by
  have hrelative : Path.relative s'.packageStart file = Path.relative s.packageStart file := by
    unfold Path.relative
    rw [hstart]
  unfold wayToPackage
  rw [hrelative, hproject, hplacement]

/-- A package's file is written in the same way from two states of the files exactly if there is
a way to it in both, and by the same names. -/
theorem wayToPackage_eq_iff (hinjective : Function.Injective s.project.normalize)
    (hout : Textual s.placement.outputDirectory) (hcopies : IsText s.project.packageOutput.bytes)
    (hfile : Anchored file) (hv : s.wayToPackage file = .ok v) :
    s'.wayToPackage file = .ok v ↔
      (s'.packageStart.clean.isAbsolute → file.clean.isAbsolute) ∧
        s'.copyNames file = s.copyNames file := by
  obtain ⟨inside, hi, copy, hc, w, hw, rfl⟩ := wayToPackage_eq_ok_iff.mp hv
  rw [← Path.exists_relative_iff s'.anchored_packageStart hfile]
  constructor
  · intro hv'
    obtain ⟨inside', hi', copy', hc', w', hw', heq⟩ := wayToPackage_eq_ok_iff.mp hv'
    refine ⟨⟨inside', hi'⟩, ?_⟩
    rw [hproject] at heq
    obtain ⟨hr, hplain⟩ := s.resolve_wayToPackage hfile hi hc hw hcopies hout
    obtain ⟨hr', hplain'⟩ := s'.resolve_wayToPackage hfile hi' hc' hw' (hproject ▸ hcopies)
      (hplacement ▸ hout)
    rw [hplacement, ← hinjective heq, hr] at hr'
    exact ((Path.rooted_inj hplain hplain').mp (Except.ok.inj hr')).symm
  · rintro ⟨⟨inside', hi'⟩, hnames⟩
    have hcopy (r : Situation) {way : String}
        (hp : r.project.packageOutput = s.project.packageOutput)
        (h : Path.relative r.packageStart file = .ok way) :
        s.project.packageOutput.resolve (.ofString way) = .ok (rooted (r.copyNames file)) := by
      rw [Path.resolve_relative r.anchored_packageStart hfile h s.isAbsolute_packageOutput hcopies,
        copyNames, hp]
    have hsame : copy = rooted (s'.copyNames file) := by
      rw [hnames]
      exact Except.ok.inj (hc.symm.trans (hcopy s rfl hi))
    refine wayToPackage_eq_ok_iff.mpr ⟨inside', hi', copy, ?_, w, ?_, by rw [hproject]⟩
    · rw [hproject, hsame]
      exact hcopy s' (by rw [hproject]) hi'
    · rwa [hplacement]

end

/-- A situation with other files. -/
def withTree (s : Situation) (t : FileTree) : Situation := { s with tree := t }

/-- After a package was relocated, whatever calls have been made since and whatever files there are
now, its relocation in the same place is the way to the file that was found then. It is written as
it was if the directory of packages still has the same canonical path, and so always if links are
kept. It is written otherwise as soon as the file is addressed by other names. -/
theorem action_of_relocated {es fs : List Ledger.Event} {l l₁ l₂ l₃ : Ledger}
    (h : History .empty es l) {s : Situation} {site site' : Site} {specifier v : String}
    (class_eq : s.classOf specifier = .package) (copies : s.project.keepsPackages = false)
    (first : (s.action site specifier).run l = (.ok (.replace v), l₁))
    (between : History l₁ fs l₂) (t : FileTree) {answer : Except Error Action}
    (again : ((s.withTree t).action site' specifier).run l₂ = (answer, l₃)) :
    ∃ file, l₂.target? specifier = some file ∧ s.wayToPackage file = .ok v ∧
      answer = ((s.withTree t).wayToPackage file).map .replace ∧
      ((s.withTree t).packageStart.clean = s.packageStart.clean → answer = .ok (.replace v)) ∧
      (s.resolver.preserveLinks = true → answer = .ok (.replace v)) ∧
      (Function.Injective s.project.normalize → Textual s.placement.outputDirectory →
        IsText s.project.packageOutput.bytes →
          (answer = .ok (.replace v) ↔
            ((s.withTree t).packageStart.clean.isAbsolute → file.clean.isAbsolute) ∧
              (s.withTree t).copyNames file = s.copyNames file)) := by
  obtain ⟨file, htarget, hv⟩ := (comes_of_run first).exists_finds class_eq copies
  have hlater := between.target?_eq_some htarget
  obtain ⟨hanswer, -⟩ :=
    (comes_of_run again).eq_of_finds class_eq copies (.remembered hlater)
  have hfile : Anchored file := by
    have hl₁ := (h.decide first).resolved Ledger.resolved_empty
    obtain ⟨r, t₀, searchPaths, hr⟩ := hl₁ specifier file htarget
    exact Resolver.anchored_of_resolvePackage hr
  have hsame (hstart : (s.withTree t).packageStart.clean = s.packageStart.clean) :
      answer = .ok (.replace v) := by
    have hway : (s.withTree t).wayToPackage file = s.wayToPackage file :=
      wayToPackage_congr rfl rfl hstart
    rw [hanswer, hway, hv]
    rfl
  refine ⟨file, hlater, hv, hanswer, hsame, fun hlinks ↦ hsame ?_, fun hinjective hout hcopies ↦ ?_⟩
  · simp [packageStart, base, withTree, hlinks]
  · rw [hanswer, map_replace_eq_ok_iff]
    exact wayToPackage_eq_iff rfl rfl hinjective hout hcopies hfile hv

/-- The files of a project whose package was taken away. -/
def emptied : FileTree :=
  ⟨[(encode "p", .directory [(encode "node_modules", .directory [])])]⟩

/-- A package that was taken away since the first decision is addressed as it was. -/
theorem action_of_relocated_of_emptied :
    ∃ l, (installed.action .declaration "own").run .empty =
        (.ok (.replace "./npm/own/index.js"), l) ∧
      (((installed.withTree emptied).action .require "own").run (l.mark "./b")).1 =
        .ok (.replace "./npm/own/index.js") := by
  obtain ⟨l, first⟩ : ∃ l, (installed.action .declaration "own").run .empty =
      (.ok (.replace "./npm/own/index.js"), l) :=
    ⟨_, Prod.ext (eq_ok_of_toOption (by decide +kernel)) rfl⟩
  have again := (Prod.eta
    (((installed.withTree emptied).action .require "own").run (l.mark "./b"))).symm
  obtain ⟨file, -, -, -, hsame, -⟩ := action_of_relocated (.nil _) (by decide +kernel) rfl first
    ((History.nil l).mark "./b") emptied again
  exact ⟨l, first, hsame (by decide +kernel)⟩

/-- A project whose directory of packages is a link to one elsewhere. -/
def linking : Situation :=
  { installed with
    tree :=
      ⟨[(encode "p", .directory [(encode "node_modules", .link (.ofString "/store"))]),
        (encode "store", .directory
          [(encode "own", .directory [(encode "index.js", .file [])])])]⟩ }

/-- The files of that project without the link. -/
def unlinked : FileTree :=
  ⟨[(encode "p", .directory []),
    (encode "store", .directory [(encode "own", .directory [(encode "index.js", .file [])])])]⟩

/-- When the link is taken away, a package that was relocated before is relocated otherwise. -/
theorem action_of_relocated_ne_of_unlinked :
    linking.classOf "own" = .package ∧ linking.project.keepsPackages = false ∧
      ∃ l, (linking.action .declaration "own").run .empty =
          (.ok (.replace "./npm/own/index.js"), l) ∧
        (((linking.withTree unlinked).action .require "own").run l).1 =
          .ok (.replace "../store/own/index.js") :=
  ⟨by decide +kernel, rfl, _, Prod.ext (eq_ok_of_toOption (by decide +kernel)) rfl,
    eq_ok_of_toOption (by decide +kernel)⟩

end Situation

end Relocation
