import Relocation.Address
import Relocation.Ledger.Program

/-!
# Decisions

What becomes of one specifier. It depends on the specifier's class, on where it is written and, in
two cases, on the ledger: a package is looked up once, and a local `require` that the build itself
has written is left alone.
-/

namespace Relocation

/-- Where a specifier is written. -/
inductive Site where
  /-- The source of an import or a re-export. -/
  | declaration
  /-- The argument of `require`. -/
  | require
  deriving DecidableEq, Repr

/-- What becomes of a specifier. -/
inductive Action where
  | keep
  | replace (value : String)
  /-- The declaration is dropped. -/
  | remove
  /-- The whole call becomes `null`. -/
  | replaceWithNull
  deriving DecidableEq, Repr

namespace Situation

open Ledger (Program)

/-- The way to the copy of the file that a package specifier names. A file that was found is
remembered, and not looked for again. -/
def relocatePackage (s : Situation) (specifier : String) : Program (Except Error String) :=
  .target specifier fun
    | some file => pure (s.wayToPackage file)
    | none =>
      match s.resolver.resolvePackage s.tree specifier s.project.searchPaths with
      | .ok file => .remember specifier file (pure (s.wayToPackage file))
      | .error e => pure (.error (.unresolved specifier s.placement.resource e))

/-- Writes a specifier, which the ledger notes. -/
def write : Except Error String → Program (Except Error Action)
  | .ok value => .mark value (pure (.ok (.replace value)))
  | .error e => pure (.error e)

/-- What becomes of a specifier. -/
def action (s : Situation) (site : Site) (specifier : String) :
    Program (Except Error Action) :=
  let project := s.project
  match project.classifier.classify specifier with
  | .excluded =>
    match site with
    | .declaration => pure (.ok .remove)
    | .require => pure (.ok .replaceWithNull)
  | .runtime =>
    write (if project.keepsPackages then
      .ok (Project.runtimeBuild project.classifier.internalPackage project.platform)
    else s.wayToRuntime)
  | .internal => write (if project.keepsPackages then .ok specifier else s.wayToRuntime)
  | .package =>
    if project.keepsPackages then pure (.ok .keep)
    else s.relocatePackage specifier >>= write
  | .path =>
    match site with
    | .declaration => pure ((s.wayToLocal specifier).map .replace)
    | .require => .contains specifier fun written ↦
      if written then pure (.ok .keep) else pure ((s.wayToLocal specifier).map .replace)

end Situation

end Relocation
