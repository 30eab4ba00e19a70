import Relocation.Syntax.Letters

/-!
# Character classes of source text

Which characters separate tokens, end lines and form names.
-/

namespace Relocation.Syntax.Character

/-- Characters that end a line of source text. -/
def isLineTerminator (c : Char) : Bool :=
  c = '\n' || c = '\r' || c = '\u2028' || c = '\u2029'

/-- Characters that separate tokens: the white space of Unicode and the byte order mark. -/
def isBlank (c : Char) : Bool :=
  c = ' ' || c = '\t' || c = '\x0b' || c = '\x0c' || isLineTerminator c || c = '\u0085' ||
    c = '\u00a0' ||
    c = '\ufeff' || c = '\u1680' || ('\u2000' ≤ c && c ≤ '\u200a') || c = '\u202f' ||
    c = '\u205f' || c = '\u3000'

/-- Characters that may begin a name. -/
def isNameStart (c : Char) : Bool :=
  c.isAlpha || c = '_' || c = '$' || '\x7f' < c && Letters.covers Letters.starts c.toNat

/-- Characters that may follow in a name. -/
def isNamePart (c : Char) : Bool :=
  isNameStart c || c.isDigit || '\x7f' < c && Letters.covers Letters.continues c.toNat

/-- The value of a hexadecimal digit. -/
def hexValue? (c : Char) : Option Nat :=
  if c.isDigit then some (c.toNat - '0'.toNat)
  else if 'a' ≤ c ∧ c ≤ 'f' then some (c.toNat - 'a'.toNat + 10)
  else if 'A' ≤ c ∧ c ≤ 'F' then some (c.toNat - 'A'.toNat + 10)
  else none

end Relocation.Syntax.Character
