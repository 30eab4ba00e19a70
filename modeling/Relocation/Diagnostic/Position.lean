import Relocation.Text.Width

/-!
# Positions

Lines and display columns of places in a text. A line ends with a line feed, a carriage return or
both together; an end of line at the very end of the text begins no further line.
-/

namespace Relocation.Diagnostic

/-- A place in a text: the line from 1 and the display column from 0. An empty text has no line,
and its only place is on line 0. -/
structure Position where
  line : Nat
  column : Nat
  deriving DecidableEq, Repr

namespace Position

/-- The columns by which a character moves what follows it. A character outside the basic plane
is counted as two, and one of them has the width of the character unless that is one column. -/
def advance (c : Char) : Nat :=
  let units := if c.toNat < 0x10000 then 1 else 2
  let width := if c = '\n' ∨ c = '\r' then 1 else Text.Width.columns c
  if width = 1 then units else units - 1 + width

/-- Tests whether a line ends with a character, given what follows it. -/
def endsLine (c : Char) (rest : List Char) : Bool :=
  rest ≠ [] && (c = '\n' || c = '\r' && rest.head? ≠ some '\n')

/-- The place at an offset in bytes from a known place. -/
def after (p : Position) : List Char → Nat → Position
  | [], _ => p
  | c :: rest, offset =>
    if offset < c.utf8Size then p
    else
      let next := if endsLine c rest then ⟨p.line + 1, 0⟩ else ⟨p.line, p.column + advance c⟩
      after next rest (offset - c.utf8Size)

/-- The place at an offset in bytes. -/
def ofOffset (text : String) (offset : Nat) : Position :=
  if text.isEmpty then ⟨0, 0⟩ else after ⟨1, 0⟩ text.toList offset

end Position

end Relocation.Diagnostic
