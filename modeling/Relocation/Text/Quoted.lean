import Relocation.Text.Printable
import Relocation.Text.Utf8

/-!
# Quoted text

Text between double quotes, with escapes for what would not be seen or would end it.
-/

namespace Relocation.Text.Quoted

/-- The hexadecimal digits of a number in lower case, without leading zeros. -/
def hex (n : Nat) : String := String.ofList (Nat.toDigits 16 n)

/-- Tests whether a character can be shown as it is. -/
def isShown (c : Char) : Bool :=
  if c.toNat < 0x20 then false
  else if c.toNat < 0x7f then true
  else !Printable.covers Printable.hidden c.toNat && !Printable.covers Printable.joining c.toNat

/-- One character between quotes. -/
def character (c : Char) : String :=
  if c = '\x00' then "\\0"
  else if c = '\t' then "\\t"
  else if c = '\n' then "\\n"
  else if c = '\r' then "\\r"
  else if c = '"' then "\\\""
  else if c = '\\' then "\\\\"
  else if isShown c then c.toString
  else "\\u\x7b" ++ hex c.toNat ++ "\x7d"

/-- A text in quotes. -/
def text (s : String) : String :=
  "\"" ++ String.join (s.toList.map character) ++ "\""

/-- Two hexadecimal digits of a byte in upper case. -/
def byte (b : UInt8) : String :=
  let digit (n : Nat) : Char := (Nat.digitChar n).toUpper
  "\\x" ++ String.ofList [digit (b.toNat / 16), digit (b.toNat % 16)]

/-- Bytes in quotes: text where they are text, and otherwise their values. -/
def bytes (bs : List UInt8) : String :=
  "\"" ++ String.join ((Utf8.pieces bs).map fun (p : Utf8.Piece) ↦ match p with
    | .char c => character c
    | .broken b => String.join (b.map byte)) ++ "\""

end Relocation.Text.Quoted
