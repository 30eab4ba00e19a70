import Relocation.Proofs.Specifier.PackageName
import Relocation.Specifier.Class

/-!
# Classes and package names

Where the names of the two framework packages are complete names, a specifier that is neither
local nor excluded is of the class of the package whose name it splits off: it lies within a
package exactly if the name of that package is its package name.
-/

namespace Relocation.Specifier

private theorem dropBeginning?_eq_some_iff {bs cs rest : List Char} :
    dropBeginning? bs cs = some rest ↔ cs = bs ++ rest := by
  fun_induction dropBeginning? bs cs with
  | case1 cs => simp
  | case2 => simp
  | case3 bs c cs ih => simp [ih]
  | case4 b bs c cs hne => simp [Ne.symm hne]

/-- A specifier lies within a package if it goes on inside it. -/
theorem isWithin_iff {cs name : List Char} :
    isWithin cs name ↔ ∃ rest, IsInside rest ∧ cs = name ++ rest := by
  simp only [← dropBeginning?_eq_some_iff]
  unfold isWithin
  cases hd : dropBeginning? name cs with
  | none => simp
  | some rest => cases rest <;> simp [IsInside]

/-- A local specifier has no package name. -/
theorem packageName_of_isPath {s : String} (h : isPath s.toList) : packageName s = none := by
  rw [packageName, splitPackage, if_pos (.inr h)]
  rfl

/-- What lies within a package with a complete name has that package name. -/
theorem isWithin_iff_packageName {s name : String} (h : CompleteName name.toList) :
    isWithin s.toList name.toList ↔ packageName s = some name := by
  rw [isWithin_iff, packageName_eq_some_iff]
  constructor
  · rintro ⟨rest, hrest, hs⟩
    exact ⟨rest, hs ▸ h.splitPackage_append hrest⟩
  · rintro ⟨rest, hsplit⟩
    have hparts := splits_of_splitPackage hsplit
    exact ⟨rest, hparts.rest_cases, hparts.split⟩

/-- A name that is its own package name is complete. -/
theorem completeName_of_packageName {name : String} (h : packageName name = some name) :
    CompleteName name.toList := by
  obtain ⟨rest, hsplit⟩ := packageName_eq_some_iff.mp h
  have hrest : rest = [] := List.self_eq_append_right.mp (splits_of_splitPackage hsplit).split
  exact splitPackage_eq_self_iff.mp (hrest ▸ hsplit)

/-- Whatever is excluded, classes and package names agree on which package a specifier belongs
to, if the names of the two framework packages are their own package names. -/
theorem classifyBy_agrees_with_packageName (excludes : String → Bool)
    {runtimePackage internalPackage : String}
    (hruntime : packageName runtimePackage = some runtimePackage)
    (hinternal : packageName internalPackage = some internalPackage) (s : String) :
    let c := classifyBy excludes runtimePackage internalPackage s
    (c = .path → packageName s = none) ∧
      (c ≠ .path → excludes s = false →
        (c = .runtime ↔ packageName s = some runtimePackage) ∧
        (c = .internal ↔
          packageName s = some internalPackage ∧ internalPackage ≠ runtimePackage) ∧
        (c = .package ↔
          packageName s ≠ some runtimePackage ∧ packageName s ≠ some internalPackage)) := by
  have hr := isWithin_iff_packageName (s := s) (completeName_of_packageName hruntime)
  have hi := isWithin_iff_packageName (s := s) (completeName_of_packageName hinternal)
  unfold classifyBy
  dsimp only
  split
  · next hpath => exact ⟨fun _ ↦ packageName_of_isPath hpath, fun h ↦ absurd rfl h⟩
  · next hpath =>
    split
    · next hexcluded => exact ⟨nofun, fun _ h ↦ absurd hexcluded (Bool.eq_false_iff.mp h)⟩
    · split
      · next hwithin =>
        -- the runtime is tried first, so it wins where both have one name
        have hname := hr.mp hwithin
        refine ⟨nofun, fun _ _ ↦ ⟨iff_of_true rfl hname, ?_, ?_⟩⟩
        · refine iff_of_false nofun fun ⟨hn, hne⟩ ↦ hne ?_
          exact Option.some.inj (hn.symm.trans hname)
        · exact iff_of_false nofun fun h ↦ h.1 hname
      · next hruntimeNot =>
        have hname := mt hr.mpr hruntimeNot
        split
        · next hwithin =>
          have hinside := hi.mp hwithin
          refine ⟨nofun, fun _ _ ↦ ⟨iff_of_false nofun hname, ?_, ?_⟩⟩
          · refine iff_of_true rfl ⟨hinside, fun he ↦ hname ?_⟩
            rw [hinside, he]
          · exact iff_of_false nofun fun h ↦ h.2 hinside
        · next hinternalNot =>
          have hinside := mt hi.mpr hinternalNot
          refine ⟨nofun, fun _ _ ↦ ⟨iff_of_false nofun hname, ?_, ?_⟩⟩
          · exact iff_of_false nofun fun h ↦ hinside h.1
          · exact iff_of_true rfl ⟨hname, hinside⟩

/-- A package in a scope whose name begins like that of the runtime in the same scope. -/
theorem classifyBy_agrees_with_packageName_of_scoped :
    packageName "@mini/rax" = some "@mini/rax" ∧
      packageName "@mini/rax-own" = some "@mini/rax-own" ∧
      packageName "@mini/rax-own//hooks" = some "@mini/rax-own" ∧
      classifyBy ({} : Classifier).excludes "@mini/rax" "@mini/rax-own" "@mini/rax-own//hooks" =
        .internal := by
  have hruntime : packageName "@mini/rax" = some "@mini/rax" := by decide
  have hinternal : packageName "@mini/rax-own" = some "@mini/rax-own" := by decide
  have hname : packageName "@mini/rax-own//hooks" = some "@mini/rax-own" := by decide
  obtain ⟨hpath, hclass⟩ := classifyBy_agrees_with_packageName ({} : Classifier).excludes hruntime
    hinternal "@mini/rax-own//hooks"
  have hlocal := mt hpath (by rw [hname]; exact Option.some_ne_none _)
  exact ⟨hruntime, hinternal, hname,
    (hclass hlocal (by decide)).2.1.mpr ⟨hname, by decide⟩⟩

end Relocation.Specifier
