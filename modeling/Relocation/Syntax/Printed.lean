import Relocation.Syntax.Layout.Statement
import Relocation.Syntax.Source

/-!
# Printed form

A file read and written again: the same program in the one form that everything is written in.
-/

namespace Relocation.Syntax

/-- The printed form of a file's text, if it can be read. -/
def printed? (fileName text : String) : Option String := do
  let source ← Source.ofText? (Flavor.ofFileName fileName) (Source.withoutMark text)
  return Layout.print source.tree source.comments

end Relocation.Syntax
