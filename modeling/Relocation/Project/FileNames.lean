import Relocation.Specifier.Class

/-!
# Forms of package paths

Ways in which a build may change the path to a package's file before it is written, for platforms
that do not allow every file name.
-/

namespace Relocation.Project

/-- A way to change paths. -/
inductive FileNames where
  | asTheyAre
  /-- An underscore for each at sign. -/
  | underscored
  /-- Another name for the directories of packages. -/
  | flattened
  | capitals
  /-- No mark in front of paths downwards. -/
  | unmarked
  /-- The same path for everything. -/
  | constant
  deriving DecidableEq, Inhabited, Repr

/-- Changes a path. -/
def FileNames.apply : FileNames → String → String
  | asTheyAre, s => s
  | underscored, s => s.map fun c ↦ if c = '@' then '_' else c
  | flattened, s => s.replace "node_modules" "npm"
  | capitals, s => s.map Char.toUpper
  | unmarked, s =>
    match Specifier.dropBeginning? ['.', '/'] s.toList with
    | some rest => String.ofList rest
    | none => s
  | constant, _ => ""

end Relocation.Project
