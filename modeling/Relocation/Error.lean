import Relocation.Project.Fault
import Relocation.Resolver.Manifest

/-!
# Errors

Why the specifiers of a file could not be relocated.
-/

namespace Relocation

/-- Why a file could not be relocated. -/
inductive Error where
  /-- A specifier of a file names nothing that can be found. -/
  | unresolved (specifier : String) (file : Path) (cause : Resolver.Error)
  /-- A file is not written in its language. -/
  | unparsed (file : Path)
  /-- The project is not valid. -/
  | invalid (fault : Project.Fault)
  /-- A path could not be computed. -/
  | path (cause : Path.Error)
  /-- A file could not be read. -/
  | unread (file : Path) (cause : FileError)

namespace Error

/-- The message of an error. -/
def message : Error → String
  | unresolved specifier file cause =>
    "Cannot resolve '" ++ specifier ++ "' from " ++ file.display ++ ": " ++ cause.message
  | unparsed file => "Failed to parse " ++ file.display
  | invalid fault => "Invalid configuration: " ++ fault.message
  | path cause => cause.message
  | unread file cause => "IO error at " ++ file.display ++ ": " ++ cause.message

end Error

end Relocation
