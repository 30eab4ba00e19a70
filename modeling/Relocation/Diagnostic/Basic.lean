import Relocation.Diagnostic.Position
import Relocation.Path.Basic
import Relocation.Syntax.Tree

/-!
# Diagnostics

Messages for the people who run a build. A message about a place in a file begins with the file's
path and, if the file's text is known, with the line and the column.
-/

namespace Relocation.Diagnostic

open Syntax (Span)

/-- How serious a message is. -/
inductive Level where
  | note
  | warning
  | error
  deriving DecidableEq, Repr

/-- The mark in front of messages of a level. -/
def Level.mark : Level → String
  | note => ""
  | warning => "WARN: "
  | error => "ERROR: "

/-- A message as it is logged. -/
def entry (level : Level) (message : String) : String := level.mark ++ message

/-- The file that messages are about. -/
structure Subject where
  file : Path
  /-- The text of the file, if it is known. -/
  text : Option String

namespace Subject

/-- What a message about a place in a file begins with. -/
def heading (s : Subject) (span : Span) : String :=
  match s.text with
  | some text =>
    let p := Position.ofOffset text span.lo
    s.file.display ++ ":" ++ toString p.line ++ ":" ++ toString p.column
  | none => s.file.display

/-- A message about a place in a file as it is logged. -/
def entry (s : Subject) (level : Level) (span : Span) (message : String) : String :=
  Diagnostic.entry level (s.heading span ++ " :: " ++ message)

/-- The characters from one offset in bytes to another. -/
def slice : List Char → Nat → Nat → List Char
  | [], _, _ => []
  | c :: rest, lo, hi =>
    if hi = 0 then []
    else if lo = 0 then c :: slice rest 0 (hi - c.utf8Size)
    else slice rest (lo - c.utf8Size) (hi - c.utf8Size)

/-- The text at a place, if it is known and the place is not turned round. -/
def snippet? (s : Subject) (span : Span) : Option String :=
  match s.text with
  | some text =>
    if span.lo ≤ span.hi then some (String.ofList (slice text.toList span.lo span.hi)) else none
  | none => none

/-- The warning about a `require` call whose argument is unknown. -/
def unknownRequirement (s : Subject) (call : Span) : String :=
  s.entry .warning call <|
    "Critical requirement of \"" ++ (s.snippet? call).getD "require(<expression>)" ++
      "\" cannot be resolved statically and has been replaced with null"

end Subject

end Relocation.Diagnostic
