import Relocation.Syntax.Kind
import Relocation.Syntax.Token

/-!
# Sheets

What has been written so far: text, the indentation of the next line, and the comments that wait
for their place. Indentation is written with the first text of a line, so empty lines have none,
and a line is never ended twice.
-/

namespace Relocation.Syntax.Layout

/-- Text being written. -/
structure Sheet where
  text : String := ""
  indent : Nat := 0
  atLineStart : Bool := true
  comments : Comments := {}

/-- An action on a sheet. -/
abbrev Writing := StateM Sheet Unit

/-- Writes text. -/
def put (s : String) : Writing := modify fun sheet ↦
  if s.isEmpty then sheet
  else
    let indented := if sheet.atLineStart then
        sheet.text ++ String.ofList (List.replicate (4 * sheet.indent) ' ')
      else sheet.text
    { sheet with text := indented ++ s, atLineStart := false }

/-- Ends the line, unless nothing stands on it. -/
def newLine : Writing := modify fun sheet ↦
  if sheet.atLineStart then sheet
  else { sheet with text := sheet.text ++ "\n", atLineStart := true }

/-- Writes with one more step of indentation. -/
def indented (w : Writing) : Writing := do
  modify fun sheet ↦ { sheet with indent := sheet.indent + 1 }
  w
  modify fun sheet ↦ { sheet with indent := sheet.indent - 1 }

/-- A comment, as it was written. After text it stands off by a space if asked to. -/
def comment (standOff : Bool) (c : Comment) : Writing := do
  if standOff then put " "
  match c.style with
  | .line =>
    put "//"
    put c.text
    newLine
  | .block =>
    put "/*"
    put c.text
    put "*/"
    put " "

/-- Takes the comments that belong before a position. -/
def leadingComments (position : Nat) : Writing := do
  let sheet ← get
  match sheet.comments.leading.filter (·.1 = position) with
  | [] => pure ()
  | here =>
    set { sheet with comments := { sheet.comments with
      leading := sheet.comments.leading.filter (·.1 ≠ position) } }
    for (_, c) in here do
      comment false c

/-- Takes the comments that belong after a position. -/
def commentsBehind (standOff : Bool) (position : Nat) : Writing := do
  let sheet ← get
  match sheet.comments.trailing.filter (·.1 = position) with
  | [] => pure ()
  | here =>
    set { sheet with comments := { sheet.comments with
      trailing := sheet.comments.trailing.filter (·.1 ≠ position) } }
    for (_, c) in here do
      comment standOff c

/-- Takes the comments that belong after a position, which stand off by a space. -/
def trailingComments (position : Nat) : Writing := commentsBehind true position

/-- Tests whether comments wait before a position. -/
def hasLeading (position : Nat) : StateM Sheet Bool := do
  return (← get).comments.leading.any (·.1 = position)

/-- Tests whether comments that end lines wait before a position. -/
def hasBreakingLeading (position : Nat) : StateM Sheet Bool := do
  return (← get).comments.leading.any fun (p, c) ↦
    p = position && (c.style matches .line || c.text.toList.any (· = '\n'))

/-- A tree with the action that writes it, and its children likewise. -/
inductive Piece where
  | mk (tree : Node) (write : Writing) (parts : List Piece)

namespace Piece

/-- The tree itself. -/
def tree : Piece → Node
  | mk t _ _ => t

/-- Writes the tree. -/
def write : Piece → Writing
  | mk _ w _ => w

/-- The children. -/
def parts : Piece → List Piece
  | mk _ _ ps => ps

/-- The label of the tree. -/
def kind (p : Piece) : Kind := p.tree.kind

/-- The span of the tree. -/
def span (p : Piece) : Span := p.tree.span

/-- Tests whether there is anything to write. -/
def isPresent (p : Piece) : Bool := p.tree.isPresent

/-- Writes a value or pattern with the comments behind it. -/
def value (p : Piece) : Writing := do
  p.write
  if p.isPresent then trailingComments p.span.hi

/-- Writes a value or pattern after a text, if it is there. -/
def after (p : Piece) (before : String) : Writing := do
  if p.isPresent then
    put before
    p.value

/-- Writes a name or type after a text, if it is there. -/
def writeAfter (p : Piece) (before : String) : Writing := do
  if p.isPresent then
    put before
    p.write

end Piece

/-- Takes the comments before the last character of a piece in a list, unless the list ends with
the piece. -/
def commentsInside (parentHi : Nat) (p : Piece) : Writing := do
  if p.isPresent && p.span.hi ≠ parentHi then leadingComments (p.span.hi - 1)

/-- Writes pieces on one line with a delimiter between them, each by the given action. Comments
behind a piece that it has not written itself stand right behind it. -/
def delimited (delimiter : String) (parentHi : Nat) (write : Piece → Writing) :
    List Piece → Writing
  | [] => pure ()
  | p :: more => do
    write p
    if p.isPresent then commentsBehind false p.span.hi
    commentsInside parentHi p
    if !more.isEmpty then put (delimiter ++ " ")
    delimited delimiter parentHi write more

/-- Writes values and patterns on one line, with commas between them. -/
def commaLine (parentHi : Nat) (ps : List Piece) : Writing :=
  delimited "," parentHi Piece.value ps

/-- Writes names and types on one line, with commas between them. -/
def commaNames (parentHi : Nat) (ps : List Piece) : Writing :=
  delimited "," parentHi Piece.write ps

/-- Writes pieces with commas between them, one on each line. A hole at the end has a comma behind
it. -/
def commaLines (parentHi : Nat) (ps : List Piece) : Writing := do
  let rec items : List Piece → Writing
    | [] => pure ()
    | [p] => do
      p.write
      if !p.isPresent then put ", "
      commentsInside parentHi p
    | p :: more => do
      p.write
      commentsInside parentHi p
      put ","
      newLine
      items more
  newLine
  indented (items ps)
  newLine

/-- Writes values with commas between them, which are no list. -/
def sequence : List Piece → Writing
  | [] => pure ()
  | [p] => p.value
  | p :: more => do
    p.value
    put ", "
    sequence more

/-- Writes pieces on lines of their own, each by the given action. -/
def lines (ps : List Piece) (write : Piece → Writing) : Writing := do
  newLine
  indented do
    for p in ps do
      write p
      newLine

end Relocation.Syntax.Layout
