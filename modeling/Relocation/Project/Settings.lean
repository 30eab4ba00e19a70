import Relocation.Json.Schema
import Relocation.Project.Basic

/-!
# Settings

A project as it is written in JSON.
-/

namespace Relocation.Project

/-- The settings of a project, as written. -/
structure Settings where
  dependencyRoots : List String
  root : String
  output : String
  source : Option String
  platform : Platform
  keepsPackages : Bool
  runtimePackage : Option String
  internalPackage : Option String
  deriving DecidableEq, Inhabited, Repr

namespace Settings

/-- The shape of settings. -/
def shape : Json.Shape where
  title := "struct RenameImportJSONConfig"
  members :=
    [⟨"nodeModulesPathList", .strings, none⟩,
     ⟨"rootContext", .string, none⟩,
     ⟨"outputPath", .string, none⟩,
     ⟨"sourcePath", .optionalString, some .none⟩,
     ⟨"platform", .variant (Platform.all.map Platform.name), none⟩,
     ⟨"disableCopyNpm", .flag, some (.flag false)⟩,
     ⟨"runtimePackage", .optionalString, some .none⟩,
     ⟨"internalPackage", .optionalString, some .none⟩]

/-- Settings from the values of their members. -/
def ofValues (vs : List Json.MemberValue) : Settings :=
  let value (i : Nat) : Json.MemberValue := vs[i]?.getD default
  { dependencyRoots := (value 0).stringList
    root := (value 1).string?.getD ""
    output := (value 2).string?.getD ""
    source := (value 3).string?
    platform := ((value 4).string?.bind Platform.ofName?).getD default
    keepsPackages := (value 5).isTrue
    runtimePackage := (value 6).string?
    internalPackage := (value 7).string? }

/-- Reads settings. -/
def parse (text : String) : Except Json.Error Settings :=
  (Json.readRecord shape false (Text.Utf8.encode text)).map ofValues

/-- The classifier that settings describe. -/
def classifier (s : Settings) : Specifier.Classifier :=
  let usual : Specifier.Classifier := {}
  { usual with
    runtimePackage := s.runtimePackage.getD usual.runtimePackage
    internalPackage := s.internalPackage.getD usual.internalPackage }

/-- The project that settings describe. -/
def toProject (s : Settings) : Except Fault Project := do
  let p ← ofPaths (Path.ofString s.root) (Path.ofString s.output)
    (s.dependencyRoots.map Path.ofString) s.platform
  let p := { p with keepsPackages := s.keepsPackages, classifier := s.classifier }
  match s.source with
  | some source => p.withSource (Path.ofString source)
  | none => return p

end Settings

/-- The JSON schema of settings. -/
def schema : Json.Document :=
  Json.Schema.ofShape
    { record := "RenameImportJSONConfig"
      recordDescription := "A JSON serializable proxy for [\x60RenameImportOptions\x60], " ++
        "shaped like the loader options the build pipeline passes around."
      variant := "Platform"
      variantDescription := "Target mini-program platform." }
    Settings.shape

/-- The project of settings in JSON. -/
def ofJson (text : String) : Except Fault Project := do
  let settings ← (Settings.parse text).mapError .unreadable
  settings.toProject

end Relocation.Project
