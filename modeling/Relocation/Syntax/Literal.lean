import Relocation.Syntax.Lexeme

/-!
# Written string literals

How a string that has no spelling of its own is written into source text.
-/

namespace Relocation.Syntax.Literal

/-- Tests whether four hexadecimal digits stand at the front and form half a surrogate pair. A
brace may open before them. -/
def beginsSurrogate (cs : List Char) : Bool :=
  let digits := (if cs.head? = some '\x7b' then cs.tail else cs).take 4
  digits.length = 4 && (Lexeme.hexNumber digits).any Lexeme.isSurrogate

/-- A hexadecimal digit in lower case. -/
def hexDigit (n : Nat) : Char := (Nat.digitChar n)

/-- One character of a literal, given what follows it. A backslash is doubled unless it begins
the escape of half a surrogate pair, which no character can stand for. -/
def escaped (quote c : Char) (after : List Char) : List Char :=
  if c = '\x00' then
    if after.head?.any Char.isDigit then ['\\', 'x', '0', '0'] else ['\\', '0']
  else if c = '\x08' then ['\\', 'b']
  else if c = '\x0c' then ['\\', 'f']
  else if c = '\n' then ['\\', 'n']
  else if c = '\r' then ['\\', 'r']
  else if c = '\x0b' then ['\\', 'v']
  else if c = '\t' then [c]
  else if c = '\\' then
    match after with
    | 'u' :: r => if beginsSurrogate r then ['\\'] else ['\\', '\\']
    | _ => ['\\', '\\']
  else if c = quote then ['\\', c]
  else if c.toNat < 0x20 then ['\\', 'x', hexDigit (c.toNat / 16), hexDigit (c.toNat % 16)]
  else if c = '\u2028' then "\\u2028".toList
  else if c = '\u2029' then "\\u2029".toList
  else if c = '\ufeff' then "\\uFEFF".toList
  else [c]

/-- The inside of a literal between the given quotes. -/
def body (quote : Char) : List Char → List Char
  | [] => []
  | c :: r => escaped quote c r ++ body quote r

/-- The quote for a string: the double one, unless it holds more of those than single ones. -/
def quoteFor (cs : List Char) : Char :=
  if cs.count '"' ≤ cs.count '\x27' then '"' else '\x27'

/-- The literal of a string. -/
def ofString (s : String) : String :=
  let cs := s.toList
  let q := quoteFor cs
  String.ofList (q :: body q cs ++ [q])

end Relocation.Syntax.Literal
