import Relocation.Proofs.Decision.Basic
import Relocation.Proofs.Resolver.Order

/-!
# Where a package is looked for

A package that is not remembered is looked for above the directories that packages may be installed
in, those above the directory that was declared last before the others. The relocation of the
package comes to what this search ends with.
-/

namespace Relocation.Situation

open Resolver (Ends Firsts LeadsIn modulePaths modulesName searchList)
open Text.Utf8 (encode)

/-- A package is looked for in the directories of packages below the beginnings of the declared
directories, the last declared first and the longest first; of those that mean the same the first
counts. The search ends in the first one that holds anything for the package, which it would do in
all of them too, and without a result exactly if none of them does. If the package is not
remembered, its relocation comes to that. -/
theorem relocatePackage_searches_in_order (s : Situation) (specifier : String) :
    (∀ root ∈ s.project.dependencyRoots,
      (modulePaths root.val).map Path.components =
          (root.val.components.inits.tail.reverse.filter
            (·.getLast? ≠ some (.name modulesName))).map (· ++ [.name modulesName]) ∧
        (root.val.fileName? = some modulesName →
          ((∃ d ds, modulePaths root.val = d :: ds ∧ d.same root.val) ↔
            root.val.parentDirectory.fileName? ≠ some modulesName))) ∧
    Firsts (s.project.dependencyRoots.reverse.flatMap fun root ↦ modulePaths root.val)
      (searchList s.project.searchPaths) ∧
    (∀ d, s.resolver.probe s.tree specifier d = .ok none ↔
      (∃ name inside, Specifier.packageImport specifier = some (name, inside) ∧
        s.tree.pathExists (d.join (.ofString name)) = false) ∨
      ∃ p, LeadsIn s.tree specifier d p ∧ s.resolver.asFileOrDirectory s.tree p = .ok none) ∧
    (∀ answer, s.resolver.resolvePackage s.tree specifier s.project.searchPaths = answer ↔
      Ends s.resolver s.tree specifier (searchList s.project.searchPaths)
        (searchList s.project.searchPaths) answer) ∧
    (∀ answer, s.resolver.resolvePackage s.tree specifier s.project.searchPaths = answer ↔
      Ends s.resolver s.tree specifier (searchList s.project.searchPaths)
        (s.project.dependencyRoots.reverse.flatMap fun root ↦ modulePaths root.val) answer) ∧
    (∀ specifier' searched,
      s.resolver.resolvePackage s.tree specifier s.project.searchPaths =
          .error (.notFound specifier' searched) ↔
        (specifier' = specifier ∧ searched = searchList s.project.searchPaths) ∧
          ∀ d ∈ searchList s.project.searchPaths,
            s.resolver.probe s.tree specifier d = .ok none) ∧
    ∀ l : Ledger, l.target? specifier = none → (s.relocatePackage specifier).run l =
      match s.resolver.resolvePackage s.tree specifier s.project.searchPaths with
      | .ok file => (s.wayToPackage file, l.remember specifier file)
      | .error e => (.error (.unresolved specifier s.placement.resource e), l) := by
  have habsolute : ∀ p ∈ s.project.searchPaths, p.isAbsolute := by
    intro p hp
    obtain ⟨root, -, rfl⟩ := List.mem_map.mp hp
    exact root.property
  have hall : s.project.searchPaths.flatMap modulePaths =
      s.project.dependencyRoots.reverse.flatMap fun root ↦ modulePaths root.val :=
    List.flatMap_map ..
  rw [← hall]
  refine ⟨fun root _ ↦ ⟨Resolver.map_components_modulePaths root.property,
      Resolver.head_modulePaths_same_iff root.property⟩, Resolver.firsts_distinct _,
    fun d ↦ Resolver.probe_eq_ok_none_iff,
    fun answer ↦ (Resolver.resolvePackage_eq_iff habsolute).1,
    fun answer ↦ (Resolver.resolvePackage_eq_iff habsolute).2, fun specifier' searched ↦ ?_,
    fun l hl ↦ ?_⟩
  · rw [(Resolver.resolvePackage_eq_iff habsolute).1, Resolver.ends_notFound_iff]
  · cases hr : s.resolver.resolvePackage s.tree specifier s.project.searchPaths with
    | ok file => exact Finds.run_relocatePackage (.found hl hr)
    | error e => exact run_relocatePackage_of_error hl hr

/-- A place in a project with two directories for packages, one below the other and the lower one
declared last, in both of which one package is installed. -/
def installedTwice : Situation where
  project :=
    { dependencyRoots := [⟨.ofString "/p", .refl true⟩, ⟨.ofString "/p/./a", .refl true⟩]
      root := ⟨.ofString "/p", .refl true⟩
      output := ⟨.ofString "/out", .refl true⟩
      platform := .wechat }
  resolver := {}
  tree :=
    ⟨[(encode "p", .directory
      [(encode "node_modules", .directory
          [(encode "pkg", .directory [(encode "index.js", .file [])]),
            (encode "own", .directory [(encode "index.js", .file [])])]),
        (encode "a", .directory [(encode "node_modules", .directory
          [(encode "pkg", .directory [(encode "index.js", .file [])])])])])]⟩
  placement := ⟨.ofString "/p/f.js", .ofString "/out/f.js"⟩

/-- The lower of the two directories, which is declared last, is searched first and holds the
package. -/
theorem relocatePackage_searches_in_order_of_installedTwice :
    searchList installedTwice.project.searchPaths =
        [.ofString "/p/./a/node_modules", .ofString "/p/node_modules",
          .ofString "/node_modules"] ∧
      Ends installedTwice.resolver installedTwice.tree "pkg"
        (searchList installedTwice.project.searchPaths)
        (searchList installedTwice.project.searchPaths)
        (.ok (.ofString "/p/a/node_modules/pkg/index.js")) ∧
      Ledger.empty.target? "pkg" = none ∧
      (installedTwice.relocatePackage "pkg").run .empty =
        (installedTwice.wayToPackage (.ofString "/p/a/node_modules/pkg/index.js"),
          Ledger.empty.remember "pkg" (.ofString "/p/a/node_modules/pkg/index.js")) := by
  have hfound : installedTwice.resolver.resolvePackage installedTwice.tree "pkg"
      installedTwice.project.searchPaths = .ok (.ofString "/p/a/node_modules/pkg/index.js") :=
    eq_ok_of_toOption (by decide +kernel)
  obtain ⟨-, -, -, hends, -, -, hrun⟩ := relocatePackage_searches_in_order installedTwice "pkg"
  have hmiss : Ledger.empty.target? "pkg" = none := rfl
  have hcomes := hrun .empty hmiss
  rw [hfound] at hcomes
  exact ⟨by decide, (hends _).mp hfound, hmiss, hcomes⟩

/-- A directory of packages in another one does not stand in its own chain. -/
theorem modulePaths_passes_nested :
    let root := Path.ofString "/p/node_modules/node_modules"
    root.fileName? = some modulesName ∧
      modulePaths root = [.ofString "/p/node_modules", .ofString "/node_modules"] ∧
      ∀ d ∈ modulePaths root, ¬d.same root := by
  decide

end Relocation.Situation
