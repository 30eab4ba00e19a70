import Relocation.Diagnostic.Basic
import Relocation.Pass.Basic
import Relocation.Syntax.Exchange
import Relocation.Syntax.Layout.Statement
import Relocation.Syntax.Source

/-!
# Sessions

One build: a project, the way its specifiers are resolved and the ledger that its files share.
Each file is a computation over the ledger, so that the files of a batch can take turns on it.
-/

namespace Relocation

open Ledger (Program)

/-- What came of a file: its relocated text or an error, and the messages on the way. -/
structure Report where
  code : Except Error String
  logs : List String

namespace Report

/-- A report of nothing but an error. -/
def failed (e : Error) : Report := ⟨.error e, []⟩

end Report

/-- A build. -/
structure Session where
  project : Project
  resolver : Resolver := {}
  ledger : Ledger := .empty

namespace Session

/-- The messages about what a pass has met. -/
def logsOf (subject : Diagnostic.Subject) (found : Pass.Findings) : List String :=
  found.unknown.map subject.unknownRequirement

/-- Relocates the text of a file at its place in the project. -/
def relocateText (s : Session) (t : FileTree) (placement : Placement) (text : String) :
    Program Report :=
  let file := placement.resource
  let text := Syntax.Source.withoutMark text
  match Syntax.Source.ofText? (Syntax.Flavor.ofFileName file.display) text with
  | none => return .failed (.unparsed file)
  | some source => do
    let situation : Situation := ⟨s.project, s.resolver, t, placement⟩
    let outcome ← Pass.relocate situation.action source.tree
    let logs := logsOf ⟨file, some text⟩ outcome.findings
    match outcome.findings.failure with
    | some e => return ⟨.error e, logs⟩
    | none => return ⟨.ok (Syntax.Layout.print outcome.tree source.comments), logs⟩

/-- Relocates the text of a file that is written where the project has its place. -/
def relocateFile (s : Session) (t : FileTree) (file : Path) (text : String) : Program Report :=
  match s.project.place file with
  | .ok placement => s.relocateText t placement text
  | .error e => return .failed e

/-- Relocates the text of a file that is written to a given path. -/
def relocateFileTo (s : Session) (t : FileTree) (file output : Path) (text : String) :
    Program Report :=
  match s.project.placeAt file output with
  | .ok placement => s.relocateText t placement text
  | .error e => return .failed e

/-- Relocates a file of the tree. -/
def relocateFileIn (s : Session) (t : FileTree) (file : Path) : Program Report :=
  match t.readText file with
  | .ok text => s.relocateFile t file text
  | .error e => return .failed (.unread file e)

/-- Relocates a file that is given as a tree in JSON form, at its place in the project. -/
def relocateDocument (s : Session) (t : FileTree) (placement : Placement) (d : Json.Document) :
    Program (Except Error Json.Document × List String) := do
  let situation : Situation := ⟨s.project, s.resolver, t, placement⟩
  let outcome ← Pass.relocate situation.action (Syntax.Exchange.read .elsewhere d)
  let logs := logsOf ⟨placement.resource, none⟩ outcome.findings
  match outcome.findings.failure with
  | some e => return (.error e, logs)
  | none => return (.ok (Syntax.Exchange.write outcome.tree), logs)

/-- What came of a batch of files. -/
structure BatchReport where
  /-- The files with their relocated texts, or the first file that failed with its error. -/
  files : Except (Path × Error) (List (Path × String))
  logs : List String

/-- Gathers the reports of the files of a batch, in their order. -/
def gather (reports : List (Path × Report)) : BatchReport where
  files := reports.mapM fun (file, report) ↦
    match report.code with
    | .ok code => .ok (file, code)
    | .error e => .error (file, e)
  logs := reports.flatMap fun (_, report) ↦ report.logs

/-- Relocates the texts of a batch of files, one after the other. -/
def relocateBatch (s : Session) (t : FileTree) (files : List (Path × String)) :
    Program BatchReport := do
  let reports ← files.mapM fun (file, text) ↦ do
    return (file, ← s.relocateFile t file text)
  return gather reports

/-- Runs a computation of the session on its ledger. -/
def run {α : Type} (s : Session) (p : Program α) : α × Session :=
  let (a, ledger) := p.run s.ledger
  (a, { s with ledger })

end Session

namespace Error

/-- What lies behind an error, from the nearest cause to the farthest. -/
def causes : Error → List String
  | unresolved _ _ cause =>
    cause.message :: match cause with
      | .manifest _ e => [e.message]
      | .file _ e => [e.message]
      | _ => []
  | unread _ cause => [cause.message]
  | _ => []

/-- The message of an error of a batch: the file, the error and all that lies behind it. -/
def batchMessage (file : Path) (e : Error) : String :=
  String.intercalate ": " (("while transforming " ++ file.display) :: e.message :: e.causes)

end Error

end Relocation
