import Relocation.Project.Basic
import Relocation.Resolver.Basic

/-!
# Addresses

The way from where a file is written to where the files that it names will stand: the runtime and
the packages in the output, and local files beside their source.
-/

namespace Relocation

/-- Where specifiers are relocated: a file's place in a project, how its specifiers are resolved
and the files that there are. -/
structure Situation where
  project : Project
  resolver : Resolver
  tree : FileTree
  placement : Placement

namespace Situation

/-- A directory as resolved files are measured from it. Links are followed in resolved files, so
they are followed here too. -/
def base (s : Situation) (directory : Path) : Path :=
  if s.resolver.preserveLinks then directory else s.tree.canonicalizeExisting directory

/-- The way from a directory to a path, marked as relative. -/
def way (start target : Path) : Except Error String :=
  ((Path.relative start target).map Path.markRelative).mapError .path

/-- The way to the runtime in the output. Nothing is looked up. -/
def wayToRuntime (s : Situation) : Except Error String :=
  way s.placement.outputDirectory
    (s.project.packageOutput.join (Path.ofString s.project.classifier.internalPackage))

/-- The way to the copy of a package's file. It stands in the output where the file stands below
the directory that packages are measured from. -/
def wayToPackage (s : Situation) (file : Path) : Except Error String := do
  let inside ← (Path.relative (s.base s.project.packageRoot) file).mapError .path
  let copy ← (s.project.packageOutput.resolve (Path.ofString inside)).mapError .path
  return s.project.normalize (← way s.placement.outputDirectory copy)

/-- The way to the file that a local specifier names. -/
def wayToLocal (s : Situation) (specifier : String) : Except Error String := do
  let directory := s.placement.resourceDirectory
  let file ← (s.resolver.resolvePath s.tree directory specifier).mapError
    (.unresolved specifier s.placement.resource)
  way (s.base directory) file

end Situation

end Relocation
