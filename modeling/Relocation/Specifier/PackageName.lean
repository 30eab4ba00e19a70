/-!
# Package names

The package that a bare specifier names: its first segment, or its first two if the first is a
scope. What follows is the path inside the package.
-/

namespace Relocation.Specifier

/-- Tests whether a specifier leads to a file by a path, relative or absolute. -/
def isPath (cs : List Char) : Bool := cs.head?.any fun c ↦ c = '.' || c = '/'

/-- The package name of a specifier's characters, and the rest, which is empty or begins with a
slash. A scope needs something after its slash. -/
def splitPackage (cs : List Char) : Option (List Char × List Char) :=
  if cs = [] ∨ isPath cs then none
  else
    let first := cs.takeWhile (· ≠ '/')
    let rest := cs.dropWhile (· ≠ '/')
    if cs.head? = some '@' then
      match rest with
      | _ :: c :: tail =>
        let second := (c :: tail).takeWhile (· ≠ '/')
        some (first ++ '/' :: second, (c :: tail).dropWhile (· ≠ '/'))
      | _ => none
    else some (first, rest)

/-- The package name of a specifier. -/
def packageName (s : String) : Option String :=
  (splitPackage s.toList).map fun (name, _) ↦ String.ofList name

/-- The package name of a specifier and the path inside the package, which begins with a dot. -/
def packageImport (s : String) : Option (String × String) :=
  (splitPackage s.toList).map fun (name, rest) ↦
    (String.ofList name, String.ofList ('.' :: rest))

end Relocation.Specifier
