import Relocation.Specifier.PackageName

/-!
# Classes of specifiers

Each specifier is of exactly one class. The classes are tried in order, so a specifier that
leads by a path is local whatever packages are named, and an excluded family wins over the two
framework packages.
-/

namespace Relocation.Specifier

/-- What kind of module a specifier names. -/
inductive SpecifierClass where
  /-- A file by its path. -/
  | path
  /-- A package of a family that no platform can ship. -/
  | excluded
  /-- The user-interface framework. -/
  | runtime
  /-- The runtime that the framework's imports are directed to. -/
  | internal
  /-- Any other package. -/
  | package
  deriving DecidableEq, Repr

/-- What is left of a list after a beginning. -/
def dropBeginning? : List Char → List Char → Option (List Char)
  | [], cs => some cs
  | _ :: _, [] => none
  | b :: bs, c :: cs => if b = c then dropBeginning? bs cs else none

/-- Tests whether a specifier is a package or lies inside it. -/
def isWithin (specifier name : List Char) : Bool :=
  match dropBeginning? name specifier with
  | some rest => rest = [] || rest.head? = some '/'
  | none => false

/-- Tests whether a specifier is in a scope: the scope between an at sign and a slash. -/
def isInScope (specifier scope : List Char) : Bool :=
  (dropBeginning? ('@' :: scope ++ ['/']) specifier).isSome

/-- A family of packages: the specifiers that fit a pattern, whatever the pattern is. -/
structure Family where
  /-- The pattern, as shown. -/
  pattern : String
  /-- Tests whether the pattern fits a specifier. -/
  contains : String → Bool

/-- The packages of some scopes. Where no scope is named, the pattern asks for the nameless
one. -/
def Family.ofScopes (scopes : List String) : Family where
  pattern := "^@(" ++ String.intercalate "|" scopes ++ ")/"
  contains s := (if scopes.isEmpty then [""] else scopes).any (isInScope s.toList ·.toList)

/-- The names by which specifiers are classified. -/
structure Classifier where
  /-- The user-interface framework. -/
  runtimePackage : String := "rax"
  /-- The runtime that its imports are directed to. -/
  internalPackage : String := "jsx2mp-runtime"
  /-- The packages that no platform can ship. -/
  excluded : Family := .ofScopes ["weex-module", "weex-project"]

/-- The class of a specifier, given which specifiers are excluded and the names of the two
framework packages. -/
def classifyBy (excludes : String → Bool) (runtimePackage internalPackage s : String) :
    SpecifierClass :=
  let cs := s.toList
  if isPath cs then .path
  else if excludes s then .excluded
  else if isWithin cs runtimePackage.toList then .runtime
  else if isWithin cs internalPackage.toList then .internal
  else .package

namespace Classifier

/-- Tests whether a specifier is of an excluded family. -/
def excludes (c : Classifier) : String → Bool := c.excluded.contains

/-- The class of a specifier. -/
def classify (c : Classifier) (s : String) : SpecifierClass :=
  classifyBy c.excludes c.runtimePackage c.internalPackage s

end Classifier

end Relocation.Specifier
