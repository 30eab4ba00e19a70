import Relocation.Project.Basic

/-!
# Summaries of projects

A project on one line, for people who look for a mistake in it.
-/

namespace Relocation.Project

/-- Named values between braces. -/
def summaryRecord (title : String) (members : List (String × String)) : String :=
  title ++ " \x7b " ++
    String.intercalate ", " (members.map fun (name, value) ↦ name ++ ": " ++ value) ++ " \x7d"

/-- The names by which a project's specifiers are classified, on one line. -/
def classifierSummary (c : Specifier.Classifier) : String :=
  summaryRecord "ModuleClassifier"
    [("runtime_package", Text.Quoted.text c.runtimePackage),
     ("internal_package", Text.Quoted.text c.internalPackage),
     ("excluded", "Regex(" ++ Text.Quoted.text c.excluded.pattern ++ ")")]

/-- A project on one line. -/
def summary (p : Project) : String :=
  summaryRecord "RenameImportOptions"
    [("dependency_roots",
      "DependencyRootSet(" ++ Path.quotedList (p.dependencyRoots.map (·.val)) ++ ")"),
     ("root_context", p.root.val.quoted),
     ("output_path", p.output.val.quoted),
     ("source_path", match p.source with
      | some source => "Some(" ++ source.val.quoted ++ ")"
      | none => "None"),
     ("platform", p.platform.title),
     ("disable_copy_npm", if p.keepsPackages then "true" else "false"),
     ("classifier", classifierSummary p.classifier),
     ("normalize_npm_file_name", Text.Quoted.text "<fn>")]

end Relocation.Project
