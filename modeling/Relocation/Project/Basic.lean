import Relocation.Error
import Relocation.Path.Relative
import Relocation.Project.Platform
import Relocation.Specifier.Class

/-!
# Projects

What holds for all files of a build: where the sources are, where the output goes and where
packages are installed. The place of one file in a project is where it is read from and where it
is written to.
-/

namespace Relocation

/-- A project. All its paths begin at the root. -/
structure Project where
  /-- Directories that packages may be installed in, in the order of their declaration. -/
  dependencyRoots : List AbsolutePath
  /-- The project's own directory. -/
  root : AbsolutePath
  /-- The directory that the output goes to. -/
  output : AbsolutePath
  /-- The directory of the sources. -/
  source : Option AbsolutePath := none
  platform : Platform
  /-- Whether packages are left to the platform and not copied to the output. -/
  keepsPackages : Bool := false
  classifier : Specifier.Classifier := {}
  /-- What is done to the way to a package's file before it is written. -/
  normalize : String → String := id

namespace Project

/-- A project from paths that are checked in their order. -/
def ofPaths (root output : Path) (dependencyRoots : List Path) (platform : Platform) :
    Except Fault Project := do
  let dependencyRoots ← dependencyRoots.mapM (checkAbsolute .dependencyRoot)
  let root ← checkAbsolute .root root
  let output ← checkAbsolute .output output
  return { dependencyRoots, root, output, platform }

/-- A project with a source directory. -/
def withSource (p : Project) (source : Path) : Except Fault Project := do
  return { p with source := some (← checkAbsolute .source source) }

/-- The directories that packages are searched in: the one declared last comes first, so that a
nested package hides an outer one. -/
def searchPaths (p : Project) : List Path := p.dependencyRoots.reverse.map (·.val)

/-- The directory that a package's place in the output is measured from. -/
def packageRoot (p : Project) : Path := p.root.val.join (Path.ofString "node_modules")

/-- The directory of the output that packages are copied to. -/
def packageOutput (p : Project) : Path := p.output.val.join (Path.ofString "npm")

/-- The specifier of the runtime if packages are not copied. -/
def runtimeBuild (internalPackage : String) (platform : Platform) : String :=
  internalPackage ++ "/dist/" ++ internalPackage ++ "." ++ platform.name ++ ".esm"

end Project

/-- The place of a file: where it is read from and where it is written to. -/
structure Placement where
  resource : Path
  output : Path
  deriving DecidableEq, Inhabited, Repr

namespace Placement

/-- The directory that a file is read from. -/
def resourceDirectory (p : Placement) : Path := p.resource.parentDirectory

/-- The directory that a file is written to. -/
def outputDirectory (p : Placement) : Path := p.output.parentDirectory

end Placement

namespace Project

/-- The place of a file that is written where its way from the source directory leads from the
output directory. -/
def place (p : Project) (resource : Path) : Except Error Placement := do
  let resource ← (checkAbsolute .resource resource).mapError .invalid
  match p.source with
  | none => throw (.invalid (.noSource resource))
  | some source =>
    let way ← (Path.relative source resource).mapError .path
    let output ← (p.output.val.resolve (Path.ofString way)).mapError .path
    return ⟨resource, output⟩

/-- The place of a file that is written to a given path. -/
def placeAt (_ : Project) (resource output : Path) : Except Error Placement := do
  let resource ← (checkAbsolute .resource resource).mapError .invalid
  let output ← (checkAbsolute .resourceOutput output).mapError .invalid
  return ⟨resource, output⟩

end Project

end Relocation
