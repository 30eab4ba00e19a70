import Relocation.Decision

/-!
# What a decision comes to

A decision about a specifier comes to one of a few things, by the class of the specifier, by where
it is written and by what the ledger holds. In each case it is said what the ledger holds
afterwards. All that is known of decisions follows from these cases.
-/

namespace Relocation

open Relocation.Path (markRelative)

namespace Specifier

private theorem classify_eq_path_iff {c : Classifier} {s : String} :
    c.classify s = .path ↔ isPath s.toList := by
  unfold Classifier.classify classifyBy
  dsimp only
  split
  · next h => exact iff_of_true rfl h
  · next h =>
    refine iff_of_false (fun hc ↦ ?_) h
    split at hc
    · cases hc
    · split at hc
      · cases hc
      · split at hc <;> cases hc

/-- A way that is marked as relative is local. -/
theorem classify_markRelative (c : Classifier) (way : String) :
    c.classify (markRelative way) = .path := by
  rw [classify_eq_path_iff]
  unfold markRelative
  split
  · next h =>
    rcases h with rfl | rfl | h | h
    · rfl
    · rfl
    all_goals
      obtain ⟨cs, hcs⟩ := String.startsWith_string_iff.mp h
      rw [← hcs]
      rfl
  · rw [String.toList_append]
    rfl

end Specifier

namespace Ledger

/-- Notes a specifier, if there is one. -/
def noting (l : Ledger) : Except Error String → Ledger
  | .ok value => l.mark value
  | .error _ => l

/-- Noting a specifier changes nothing of the files that are remembered. -/
@[simp] theorem target?_noting (l : Ledger) (x : Except Error String) (s : String) :
    (l.noting x).target? s = l.target? s := by
  cases x with
  | ok value => exact target?_mark l value s
  | error e => rfl

/-- After noting, that specifier is written besides those that were. -/
theorem contains_noting (l : Ledger) (x : Except Error String) (v : String) :
    (l.noting x).contains v ↔ x = .ok v ∨ l.contains v := by
  cases x with
  | ok value =>
    rw [noting, contains_mark, Bool.or_eq_true, beq_iff_eq, Except.ok.injEq, eq_comm]
  | error e => simp [noting]

/-- To mark what is written changes nothing. -/
theorem mark_of_contains {l : Ledger} {v : String} (h : l.contains v) : l.mark v = l := by
  rw [mark, if_pos h]

end Ledger

namespace Project

/-- The specifier of the runtime if packages are not copied. -/
abbrev ownBuild (p : Project) : String := runtimeBuild p.classifier.internalPackage p.platform

end Project

namespace Situation

variable {s : Situation} {site : Site} {specifier : String} {l l' : Ledger}
  {answer : Except Error Action}

/-- The class of a specifier in a situation. -/
abbrev classOf (s : Situation) (specifier : String) : Specifier.SpecifierClass :=
  s.project.classifier.classify specifier

/-- Where a specifier of the framework or of its runtime is directed to. -/
def wayToFramework (s : Situation) (specifier : String) : Except Error String :=
  if s.project.keepsPackages then
    .ok (if s.classOf specifier = .runtime then s.project.ownBuild else specifier)
  else s.wayToRuntime

/-- The file that a package specifier names, remembered or found now, and the ledger that
remembers it. -/
inductive Finds (s : Situation) (specifier : String) (l : Ledger) : Path → Ledger → Prop where
  | remembered {file : Path} (target : l.target? specifier = some file) : Finds s specifier l file l
  | found {file : Path} (target : l.target? specifier = none)
      (resolved : s.resolver.resolvePackage s.tree specifier s.project.searchPaths = .ok file) :
      Finds s specifier l file (l.remember specifier file)

/-- What a decision about a specifier can come to, and the ledger that it leaves. -/
inductive Comes (s : Situation) (specifier : String) (l : Ledger) :
    Site → Except Error Action → Ledger → Prop where
  | dropped (class_eq : s.classOf specifier = .excluded) :
      Comes s specifier l .declaration (.ok .remove) l
  | nulled (class_eq : s.classOf specifier = .excluded) :
      Comes s specifier l .require (.ok .replaceWithNull) l
  /-- A package is left to the platform. -/
  | kept (site : Site) (class_eq : s.classOf specifier = .package)
      (keeps : s.project.keepsPackages = true) : Comes s specifier l site (.ok .keep) l
  /-- A local specifier that the build itself has written is left alone. -/
  | known (class_eq : s.classOf specifier = .path) (written : l.contains specifier) :
      Comes s specifier l .require (.ok .keep) l
  | located (site : Site) (class_eq : s.classOf specifier = .path)
      (unwritten : site = .require → l.contains specifier = false) :
      Comes s specifier l site ((s.wayToLocal specifier).map .replace) l
  | directed (site : Site)
      (class_eq : s.classOf specifier = .runtime ∨ s.classOf specifier = .internal) :
      Comes s specifier l site ((s.wayToFramework specifier).map .replace)
        (l.noting (s.wayToFramework specifier))
  | copied (site : Site) {file : Path} {m : Ledger} (class_eq : s.classOf specifier = .package)
      (copies : s.project.keepsPackages = false) (finds : s.Finds specifier l file m) :
      Comes s specifier l site ((s.wayToPackage file).map .replace)
        (m.noting (s.wayToPackage file))
  /-- No file is found for a package. -/
  | missing (site : Site) {e : Resolver.Error} (class_eq : s.classOf specifier = .package)
      (copies : s.project.keepsPackages = false) (target : l.target? specifier = none)
      (unresolved : s.resolver.resolvePackage s.tree specifier s.project.searchPaths = .error e) :
      Comes s specifier l site (.error (.unresolved specifier s.placement.resource e)) l

private theorem run_write (value : Except Error String) (l : Ledger) :
    (write value).run l = (value.map .replace, l.noting value) := by
  cases value <;> rfl

/-- The relocation of a package, by the file that it finds. -/
theorem Finds.run_relocatePackage {file : Path} {m : Ledger} (h : s.Finds specifier l file m) :
    (s.relocatePackage specifier).run l = (s.wayToPackage file, m) := by
  unfold relocatePackage
  cases h with
  | remembered target => simp [Ledger.Program.run, target]
  | found target resolved => simp [Ledger.Program.run, target, resolved]

/-- A package that is not found cannot be relocated, and the ledger stays as it is. -/
theorem run_relocatePackage_of_error {e : Resolver.Error} (target : l.target? specifier = none)
    (unresolved : s.resolver.resolvePackage s.tree specifier s.project.searchPaths = .error e) :
    (s.relocatePackage specifier).run l =
      (.error (.unresolved specifier s.placement.resource e), l) := by
  simp [relocatePackage, Ledger.Program.run, target, unresolved]

/-- A package is remembered or found, or there is an error. -/
theorem finds_or_error (s : Situation) (specifier : String) (l : Ledger) :
    (∃ file m, s.Finds specifier l file m) ∨
      ∃ e, l.target? specifier = none ∧
        s.resolver.resolvePackage s.tree specifier s.project.searchPaths = .error e := by
  cases ht : l.target? specifier with
  | some file => exact .inl ⟨file, l, .remembered ht⟩
  | none =>
    cases hr : s.resolver.resolvePackage s.tree specifier s.project.searchPaths with
    | ok file => exact .inl ⟨file, _, .found ht hr⟩
    | error e => exact .inr ⟨e, rfl, rfl⟩

/-- Some one of these things is what a decision comes to. -/
theorem exists_comes (s : Situation) (site : Site) (specifier : String) (l : Ledger) :
    ∃ answer l', s.Comes specifier l site answer l' := by
  cases hc : s.classOf specifier with
  | excluded =>
    cases site with
    | declaration => exact ⟨_, _, .dropped hc⟩
    | require => exact ⟨_, _, .nulled hc⟩
  | runtime => exact ⟨_, _, .directed site (.inl hc)⟩
  | internal => exact ⟨_, _, .directed site (.inr hc)⟩
  | package =>
    cases hk : s.project.keepsPackages with
    | true => exact ⟨_, _, .kept site hc hk⟩
    | false =>
      rcases s.finds_or_error specifier l with ⟨file, m, hf⟩ | ⟨e, ht, hr⟩
      · exact ⟨_, _, .copied site hc hk hf⟩
      · exact ⟨_, _, .missing site hc hk ht hr⟩
  | path =>
    cases site with
    | declaration => exact ⟨_, _, .located .declaration hc fun hs ↦ by cases hs⟩
    | require =>
      cases hw : l.contains specifier with
      | true => exact ⟨_, _, .known hc hw⟩
      | false => exact ⟨_, _, .located .require hc fun _ ↦ hw⟩

/-- What a decision comes to is its answer. -/
theorem Comes.run_eq (h : s.Comes specifier l site answer l') :
    (s.action site specifier).run l = (answer, l') := by
  cases h with
  | dropped class_eq | nulled class_eq =>
    simp only [action, class_eq]
    rfl
  | kept _ class_eq keeps =>
    simp only [action, class_eq, keeps, if_true]
    rfl
  | known class_eq written =>
    simp only [action, class_eq, Ledger.Program.run, written, if_true]
    rfl
  | located _ class_eq unwritten =>
    cases site with
    | declaration =>
      simp only [action, class_eq]
      rfl
    | require =>
      simp only [action, class_eq, Ledger.Program.run, unwritten rfl, Bool.false_eq_true, if_false]
      rfl
  | directed _ class_eq =>
    rw [← run_write]
    rcases class_eq with class_eq | class_eq <;> simp [action, wayToFramework, class_eq]
  | copied _ class_eq copies finds =>
    simp only [action, class_eq, copies, Bool.false_eq_true, if_false]
    rw [Ledger.Program.run_bind, finds.run_relocatePackage, run_write]
  | missing _ class_eq copies target unresolved =>
    simp only [action, class_eq, copies, Bool.false_eq_true, if_false]
    rw [Ledger.Program.run_bind, run_relocatePackage_of_error target unresolved, run_write]
    rfl

/-- A decision comes to one of these things. -/
theorem comes_of_run (h : (s.action site specifier).run l = (answer, l')) :
    s.Comes specifier l site answer l' := by
  obtain ⟨_, _, hcomes⟩ := s.exists_comes site specifier l
  rw [hcomes.run_eq] at h
  cases h
  exact hcomes

end Situation

end Relocation
