import Relocation.Project.FileNames
import Relocation.Proofs.Ledger.History

/-!
# Written specifiers that are met again

A build can meet what it has written as the argument of `require`. A local specifier is then left
as it is. What is written is local unless packages are left to the platform, or what is done to
the ways to their copies makes them so; and the name of the runtime stands for itself unless its
family is excluded.
-/

namespace Relocation

open Relocation.Path (markRelative)
open Ledger (Event History)
open Situation (installed)

/-- What a build can write and note. -/
inductive Project.Emits (p : Project) (v : String) : Prop where
  | build (keeps : p.keepsPackages = true) (own : v = p.ownBuild)
  | runtime (keeps : p.keepsPackages = true) (class_eq : p.classifier.classify v = .internal)
  | output (copies : p.keepsPackages = false) (class_eq : p.classifier.classify v = .path)
  | copy (copies : p.keepsPackages = false) (way : String)
      (changed : v = p.normalize (markRelative way))

namespace Situation

variable {s : Situation} {site : Site} {specifier v : String} {l l' : Ledger}
  {answer : Except Error Action}

/-- A way to the runtime is local. -/
theorem classOf_of_wayToRuntime (h : s.wayToRuntime = .ok v) : s.classOf v = .path := by
  obtain ⟨way, -, rfl⟩ := way_eq_ok_iff.mp h
  exact Specifier.classify_markRelative _ way

/-- A decision notes only what a build can write. -/
theorem Comes.emits (h : s.Comes specifier l site answer l')
    (hv : (Event.decided s site specifier answer).Writes v) : s.project.Emits v := by
  obtain ⟨hanswer, hclass⟩ := hv
  cases h with
  | dropped | nulled | kept | known | missing => cases hanswer
  | located _ class_eq => simp [class_eq] at hclass
  | directed _ class_eq =>
    rw [map_replace_eq_ok_iff, wayToFramework] at hanswer
    split at hanswer
    · next hk =>
      split at hanswer
      · next => exact .build hk (Except.ok.inj hanswer).symm
      · next hr =>
        obtain rfl := Except.ok.inj hanswer
        exact .runtime hk (class_eq.resolve_left hr)
    · next hk => exact .output (Bool.eq_false_iff.mpr hk) (classOf_of_wayToRuntime hanswer)
  | copied _ _ copies =>
    rw [map_replace_eq_ok_iff, wayToPackage_eq_ok_iff] at hanswer
    obtain ⟨-, -, -, -, way, -, rfl⟩ := hanswer
    exact .copy copies way rfl

/-- What a `require` call comes to whose argument has been written. -/
theorem Comes.leaves_iff (h : s.Comes v l .require answer l') (hv : l.contains v)
    (he : s.project.Emits v) :
    (answer = .ok .keep ∨ answer = .ok (.replace v)) ↔
      s.classOf v = .path ∨ (s.project.keepsPackages = true ∧ s.classOf v ≠ .excluded) ∨
        (s.project.keepsPackages = false ∧ s.classOf v = .package ∧
          ((s.relocatePackage v).run l).1 = .ok v) := by
  cases h with
  | nulled class_eq => simp [class_eq]
  | kept _ class_eq keeps => simp [class_eq, keeps]
  | known class_eq => simp [class_eq]
  | located _ _ unwritten =>
    rw [unwritten rfl] at hv
    cases hv
  | copied _ class_eq copies finds =>
    rw [finds.run_relocatePackage, map_replace_eq_ok_iff]
    cases s.wayToPackage _ <;> simp [class_eq, copies, Except.map]
  | missing _ class_eq copies target unresolved =>
    rw [run_relocatePackage_of_error target unresolved]
    simp [class_eq, copies]
  | directed _ class_eq =>
    have hclass : s.classOf v ≠ .path ∧ s.classOf v ≠ .excluded ∧ s.classOf v ≠ .package := by
      rcases class_eq with class_eq | class_eq <;> simp [class_eq]
    simp only [hclass, ne_eq, not_false_eq_true, and_true, false_or, false_and, and_false, or_false]
    cases hk : s.project.keepsPackages with
    | true =>
      -- the runtime is directed to itself, the framework to the specifier of the runtime
      refine iff_of_true (.inr ?_) rfl
      rw [map_replace_eq_ok_iff, wayToFramework, if_pos hk, Except.ok.injEq]
      split
      · next hr =>
        cases he with
        | build _ own => exact own.symm
        | runtime _ internal => cases hr.symm.trans internal
        | output copies => cases hk.symm.trans copies
        | copy copies => cases hk.symm.trans copies
      · rfl
    | false =>
      refine iff_of_false ?_ Bool.false_ne_true
      rw [wayToFramework, hk, if_neg Bool.false_ne_true]
      rintro (hanswer | hanswer)
      · cases hw : s.wayToRuntime <;> simp [hw, Except.map] at hanswer
      · exact hclass.1 (classOf_of_wayToRuntime (map_replace_eq_ok_iff.mp hanswer))

end Situation

namespace Ledger

variable {l m : Ledger} {es : List Event}

/-- A call is a decision in a project. -/
def Event.IsIn (p : Project) : Event → Prop
  | marked _ => False
  | decided s _ _ _ => s.project = p

namespace History

/-- Each decision was made against some ledger. -/
theorem run_of_mem (h : History l es m) {s : Situation} {site : Site} {specifier : String}
    {answer : Except Error Action} (he : Event.decided s site specifier answer ∈ es) :
    ∃ before after, (s.action site specifier).run before = (answer, after) := by
  induction h with
  | nil => cases he
  | mark _ value ih =>
    rcases List.mem_append.mp he with he | he
    · exact ih he
    · cases List.mem_singleton.mp he
  | decide _ run ih =>
    rcases List.mem_append.mp he with he | he
    · exact ih he
    · cases List.mem_singleton.mp he
      exact ⟨_, _, run⟩

/-- Decisions in a project write only what its build can write. -/
theorem emits {p : Project} (h : History empty es l) (hes : ∀ e ∈ es, e.IsIn p) {v : String}
    (hv : l.contains v) : p.Emits v := by
  rcases (h.contains_iff v).mp hv with hempty | ⟨e, he, hwrites⟩
  · cases hempty
  · have hin := hes e he
    cases e with
    | marked value => cases hin
    | decided s site specifier answer =>
      obtain ⟨before, after, run⟩ := h.run_of_mem he
      exact hin ▸ (Situation.comes_of_run run).emits hwrites

/-- A `require` call whose argument the build itself has written is left as it is exactly if the
argument is local, or if packages are left to the platform and the argument is not excluded, or if
it is a package that is relocated to itself. All that is written is local if packages are copied
and what is done to their ways leaves these local; and otherwise nothing that is written is
excluded if the runtime is not. -/
theorem leaves_written_iff {p : Project} (h : History empty es l) (hes : ∀ e ∈ es, e.IsIn p)
    {v : String} (hv : l.contains v) {s : Situation} (hs : s.project = p)
    {answer : Except Error Action} {l' : Ledger}
    (run : (s.action .require v).run l = (answer, l')) :
    ((answer = .ok .keep ∨ answer = .ok (.replace v)) ↔
      s.classOf v = .path ∨ (p.keepsPackages = true ∧ s.classOf v ≠ .excluded) ∨
        (p.keepsPackages = false ∧ s.classOf v = .package ∧
          ((s.relocatePackage v).run l).1 = .ok v)) ∧
    (p.keepsPackages = false →
      (∀ way, p.classifier.classify (p.normalize (markRelative way)) = .path) →
        s.classOf v = .path) ∧
    (p.keepsPackages = true → p.classifier.classify p.ownBuild ≠ .excluded →
      s.classOf v ≠ .excluded) := by
  subst hs
  have hemits := h.emits hes hv
  refine ⟨(Situation.comes_of_run run).leaves_iff hv hemits, fun hcopies hlocal ↦ ?_,
    fun hkeeps hown ↦ ?_⟩
  · cases hemits with
    | build keeps => cases hcopies.symm.trans keeps
    | runtime keeps => cases hcopies.symm.trans keeps
    | output _ class_eq => exact class_eq
    | copy _ way changed => rw [changed]; exact hlocal way
  · cases hemits with
    | build _ own => rwa [own]
    | runtime _ class_eq => rw [Situation.classOf, class_eq]; decide
    | output copies => cases hkeeps.symm.trans copies
    | copy copies => cases hkeeps.symm.trans copies

/-- The way that was written for a package is left as it is when it is required itself. -/
theorem leaves_written_of_own :
    ∃ es l answer l', History empty es l ∧ l.contains "./npm/own/index.js" ∧
      (installed.action .require "./npm/own/index.js").run l = (answer, l') ∧
      (answer = .ok .keep ∨ answer = .ok (.replace "./npm/own/index.js")) := by
  have run : (installed.action .declaration "own").run empty =
      (.ok (.replace "./npm/own/index.js"), _) :=
    Prod.ext (eq_ok_of_toOption (by decide +kernel)) rfl
  have h := (History.nil empty).decide run
  have hes : ∀ e ∈ [Event.decided installed .declaration "own"
      (.ok (.replace "./npm/own/index.js"))], e.IsIn installed.project := by
    intro e he
    cases List.mem_singleton.mp he
    rfl
  have hv := (h.contains_iff "./npm/own/index.js").mpr
    (.inr ⟨_, List.mem_singleton_self _, rfl, by decide +kernel⟩)
  obtain ⟨hiff, -, -⟩ := leaves_written_iff h hes hv (s := installed) rfl rfl
  exact ⟨_, _, _, _, h, hv, rfl, hiff.mpr (.inl (by decide +kernel))⟩

/-- A project whose ways to copies lose the mark of relative ones. -/
def unmarking : Situation :=
  { installed with
    project := { installed.project with normalize := Project.FileNames.unmarked.apply } }

/-- A project that leaves packages to the platform, with a runtime of an excluded family. -/
def excluding : Situation :=
  { installed with
    project :=
      { installed.project with
        keepsPackages := true
        classifier := { internalPackage := "@weex-module/rt" } } }

/-- A way that is written without its mark is looked for as a package when it is met again, and
the written name of an excluded runtime becomes `null`. -/
theorem leaves_written_not_unmarking_excluding :
    (∃ l, History empty [.decided unmarking .declaration "own"
        (.ok (.replace "npm/own/index.js"))] l ∧ l.contains "npm/own/index.js" ∧
      ∀ action, ((unmarking.action .require "npm/own/index.js").run l).1 ≠ .ok action) ∧
    ∃ l, History empty [.decided excluding .declaration "rax"
        (.ok (.replace "@weex-module/rt/dist/@weex-module/rt.wechat.esm"))] l ∧
      l.contains "@weex-module/rt/dist/@weex-module/rt.wechat.esm" ∧
      ((excluding.action .require "@weex-module/rt/dist/@weex-module/rt.wechat.esm").run l).1 =
        .ok .replaceWithNull := by
  constructor
  · refine ⟨_, (History.nil empty).decide
      (Prod.ext (eq_ok_of_toOption (by decide +kernel)) rfl), by decide +kernel, fun action h ↦ ?_⟩
    have hnone : ((unmarking.action .require "npm/own/index.js").run
        ((unmarking.action .declaration "own").run empty).2).1.toOption = none := by
      decide +kernel
    rw [h] at hnone
    cases hnone
  · exact ⟨_, (History.nil empty).decide
      (Prod.ext (eq_ok_of_toOption (by decide +kernel)) rfl), by decide +kernel,
      eq_ok_of_toOption (by decide +kernel)⟩

end History

end Ledger

end Relocation
