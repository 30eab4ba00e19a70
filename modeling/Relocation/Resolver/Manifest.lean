import Relocation.FileTree.Basic
import Relocation.Json.Record

/-!
# Package manifests

The members of a package's manifest that name its entry file.
-/

namespace Relocation.Resolver

/-- Why a specifier could not be resolved. -/
inductive Error where
  /-- No file was found; the paths are those that were searched. -/
  | notFound (specifier : String) (searched : List Path)
  /-- A manifest could not be read as one. -/
  | manifest (path : Path) (error : Json.Error)
  /-- A file could not be opened. -/
  | file (path : Path) (error : FileError)
  /-- A path could not be computed. -/
  | path (error : Path.Error)

/-- The message of an error. -/
def Error.message : Error → String
  | notFound specifier searched =>
    "Cannot find module '" ++ specifier ++ "' (searched " ++ Path.quotedList searched ++ ")"
  | manifest p e => "Failed to parse " ++ p.display ++ ": " ++ e.message
  | file p e => "IO error at " ++ p.display ++ ": " ++ e.message
  | path e => e.message

/-- A package's manifest. -/
structure Manifest where
  name : Option String
  main : Option String
  module : Option String
  /-- The browser entry, if it is a string. -/
  browser : Option String
  deriving DecidableEq, Inhabited, Repr

namespace Manifest

/-- The shape of a manifest; all members may be left out. -/
def shape : Json.Shape where
  title := "struct PackageJson"
  members :=
    [⟨"name", .optionalString, some .none⟩, ⟨"main", .optionalString, some .none⟩,
     ⟨"module", .optionalString, some .none⟩, ⟨"browser", .anything, some .none⟩]

/-- A manifest from the values of its members. -/
def ofValues (vs : List Json.MemberValue) : Manifest :=
  let get (i : Nat) : Option String := vs[i]?.bind Json.MemberValue.string?
  ⟨get 0, get 1, get 2, get 3⟩

/-- Reads a manifest. -/
def parse (bytes : List UInt8) : Except Json.Error Manifest :=
  (Json.readRecord shape true bytes).map ofValues

/-- Reads the manifest at a path. A directory can be opened, but nothing can be read from it. -/
def read (t : FileTree) (path : Path) : Except Error Manifest :=
  match t.read path with
  | .ok bytes => (parse bytes).mapError (.manifest path)
  | .error .isDirectory => .error (.manifest path ⟨.unread FileError.isDirectory.message, none⟩)
  | .error e => .error (.file path e)

/-- The entry that a field names. -/
def entry? (m : Manifest) (field : String) : Option String :=
  match field with
  | "main" => m.main
  | "module" => m.module
  | "browser" => m.browser
  | _ => none

end Manifest

end Relocation.Resolver
