import Relocation.Json.Error
import Relocation.Path.Basic

/-!
# Faults of a project

Why a project, or the place of a file in it, is not valid.
-/

namespace Relocation.Project

/-- What a path of a project is for. -/
inductive Purpose where
  | dependencyRoot
  | root
  | output
  | source
  | resource
  | resourceOutput
  deriving DecidableEq, Repr

/-- The words for a purpose. -/
def Purpose.name : Purpose → String
  | dependencyRoot => "nodeModulesPathList entry"
  | root => "rootContext"
  | output => "outputPath"
  | source => "sourcePath"
  | resource => "resource path"
  | resourceOutput => "dist source path"

/-- Why a project is not valid. -/
inductive Fault where
  /-- The settings could not be read. -/
  | unreadable (error : Json.Error)
  /-- A path does not begin at the root. -/
  | notAbsolute (purpose : Purpose) (path : Path)
  /-- There is no source directory from which the place of a file follows. -/
  | noSource (resource : Path)

/-- The message of a fault. -/
def Fault.message : Fault → String
  | unreadable e => e.message
  | notAbsolute purpose p => purpose.name ++ " must be an absolute path, got " ++ p.display
  | noSource resource =>
    "sourcePath is not configured, so the output location of " ++ resource.display ++
      " must be given explicitly"

/-- A path, if it begins at the root. -/
def checkAbsolute (purpose : Purpose) (p : Path) : Except Fault AbsolutePath :=
  if h : p.isAbsolute then .ok ⟨p, h⟩ else .error (.notAbsolute purpose p)

end Relocation.Project
