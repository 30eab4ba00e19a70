import Relocation.Resolver.Manifest
import Relocation.Path.Relative
import Relocation.Specifier.PackageName

/-!
# Resolution of specifiers

Finds the file that a specifier names. A path is tried as a file, then as a file with each
extension, then as a directory: by the entry that its manifest names, and else by its index file.
A bare specifier is tried so in the `node_modules` directories above the search paths.
-/

namespace Relocation

/-- How specifiers are resolved. -/
structure Resolver where
  /-- Extensions that are tried behind a path that is no file, in order. -/
  extensions : List String := ["js", "jsx", "ts", "tsx", "json", "node"]
  /-- Fields of a manifest that may name the entry file, in order. -/
  mainFields : List String := ["main"]
  /-- Whether links in the answer are kept. -/
  preserveLinks : Bool := false
  deriving DecidableEq, Inhabited, Repr

namespace Resolver

/-- The name of the directories that packages are installed in. -/
def modulesName : Name := Text.Utf8.encode "node_modules"

/-- The name of a package's manifest. -/
def manifestName : Path := Path.ofString "package.json"

/-- The directories that packages are looked up in from a place: one below each directory from
the place upwards, nearest first, except below those that are such directories themselves. -/
def modulePaths (start : Path) : List Path :=
  (start.ancestors.filter fun a ↦ a.fileName? ≠ some modulesName).map (·.join ⟨modulesName⟩)

/-- The answer for a file that was found. -/
def settle (r : Resolver) (t : FileTree) (p : Path) : Except Error Path :=
  if r.preserveLinks then .ok p.clean else (t.canonicalize p).mapError (.file p)

/-- A path with a name and an extension at its end. -/
def withExtension (p : Path) (name extension : String) : Path :=
  p.withFileName (Text.Utf8.encode (name ++ "." ++ extension))

/-- The first file among a path with each extension, each put in the place of the one before. -/
def firstExtended (t : FileTree) (name : String) : Path → List String → Option Path
  | _, [] => none
  | p, e :: es =>
    let q := withExtension p name e
    if t.isFile q then some q else firstExtended t name q es

/-- The file that a path names: itself, or with an extension. -/
def asFile (r : Resolver) (t : FileTree) (p : Path) : Option Path :=
  if t.isFile p then some p
  else
    match p.fileName? with
    | some name => firstExtended t (Text.Utf8.decodeLossy name) p r.extensions
    | none => none

/-- The index file of a directory. -/
def indexOf (r : Resolver) (t : FileTree) (directory : Path) : Option Path :=
  (r.extensions.map fun e ↦ directory.join (Path.ofString ("index." ++ e))).find? t.isFile

/-- The file of the entry that a manifest names. -/
def entryOf (r : Resolver) (t : FileTree) (directory manifestPath : Path) :
    Except Error (Option Path) := do
  let m ← Manifest.read t manifestPath
  match r.mainFields.findSome? m.entry? with
  | none => return none
  | some entry =>
    let target := (directory.join (Path.ofString entry)).clean
    match r.asFile t target with
    | some f => return some f
    | none => return if t.isDirectory target then r.indexOf t target else none

/-- The file that a directory stands for. -/
def asDirectory (r : Resolver) (t : FileTree) (p : Path) : Except Error (Option Path) := do
  if t.isDirectory p then
    let manifestPath := p.join manifestName
    let entry ← if t.isFile manifestPath then r.entryOf t p manifestPath else pure none
    return entry.orElse fun _ ↦ r.indexOf t p
  else return none

/-- The file that a path names or, as a directory, stands for. -/
def asFileOrDirectory (r : Resolver) (t : FileTree) (p : Path) : Except Error (Option Path) :=
  match r.asFile t p with
  | some f => .ok (some f)
  | none => r.asDirectory t p

/-- The path that a bare specifier means in a directory of packages. There is none if the
specifier names a package that the directory does not hold. -/
def candidate (t : FileTree) (specifier : String) (directory : Path) : Option Path :=
  match Specifier.packageImport specifier with
  | none => some (directory.join (Path.ofString specifier))
  | some (package, inside) =>
    let packageDirectory := directory.join (Path.ofString package)
    if !t.pathExists packageDirectory then none
    else
      match inside.toList with
      | '.' :: '/' :: rest => some (packageDirectory.join (Path.ofString (String.ofList rest)))
      | _ => some packageDirectory

/-- What is found for a bare specifier in one directory of packages. -/
def probe (r : Resolver) (t : FileTree) (specifier : String) (directory : Path) :
    Except Error (Option Path) :=
  match candidate t specifier directory with
  | none => .ok none
  | some p => r.asFileOrDirectory t p

/-- The first file found among directories of packages. A fault in one of them ends the
search. -/
def firstHit (r : Resolver) (t : FileTree) (specifier : String) :
    List Path → Except Error (Option Path)
  | [] => .ok none
  | d :: ds =>
    match r.probe t specifier d with
    | .ok (some p) => .ok (some p)
    | .ok none => firstHit r t specifier ds
    | .error e => .error e

/-- Keeps the first of paths that mean the same. -/
def distinct : List Path → List Path → List Path
  | _, [] => []
  | seen, p :: ps =>
    if seen.any (·.same p) then distinct seen ps else p :: distinct (p :: seen) ps

/-- The directories of packages for search paths, each once. -/
def searchList (searchPaths : List Path) : List Path :=
  distinct [] (searchPaths.flatMap modulePaths)

/-- The file that a bare specifier names. -/
def resolvePackage (r : Resolver) (t : FileTree) (specifier : String)
    (searchPaths : List Path) : Except Error Path := do
  let directories := searchList searchPaths
  match ← r.firstHit t specifier directories with
  | some p => r.settle t p
  | none => throw (.notFound specifier directories)

/-- Tests whether a specifier can only mean a directory. -/
def isDirectorySpecifier (specifier : String) : Bool :=
  specifier.toList.getLast? = some '/' ||
    match (Path.ofString specifier).components.getLast? with
    | some .current | some .parent => true
    | _ => false

/-- The file that a relative or absolute specifier names from a directory. -/
def resolvePath (r : Resolver) (t : FileTree) (base : Path) (specifier : String) :
    Except Error Path := do
  let target ← (base.resolve (Path.ofString specifier)).mapError Error.path
  let found ← if isDirectorySpecifier specifier then r.asDirectory t target
    else r.asFileOrDirectory t target
  match found with
  | some p => r.settle t p
  | none => throw (.notFound specifier [target])

end Resolver

end Relocation
