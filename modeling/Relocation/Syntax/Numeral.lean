import Relocation.Decimal.Shortest
import Relocation.Syntax.Lexeme

/-!
# Numerals

The values of numbers as they are spelled in source text.
-/

namespace Relocation.Syntax.Numeral

/-- Reads digits of a radix. -/
def digits (radix : Nat) (cs : List Char) : Nat :=
  cs.foldl (fun n c ↦ n * radix + (Character.hexValue? c).getD 0) 0

/-- The value of a decimal with an optional fraction and exponent. -/
def decimal (cs : List Char) : Float :=
  let isExponent (c : Char) : Bool := c = 'e' || c = 'E'
  let significand := cs.takeWhile (!isExponent ·)
  let whole := significand.takeWhile (· ≠ '.')
  let fraction := (significand.drop whole.length).drop 1
  let mantissa := digits 10 (whole ++ fraction)
  let power := (cs.drop significand.length).drop 1
  let exponent : Int := match power with
    | '-' :: r => -(digits 10 r : Int)
    | '+' :: r => digits 10 r
    | r => digits 10 r
  let scale := exponent - fraction.length
  Float.ofScientific mantissa (scale < 0) scale.natAbs

/-- The value of a number by its spelling. -/
def value (raw : String) : Float :=
  match raw.toList.filter (· ≠ '_') with
  | '0' :: letter :: r =>
    if letter = 'x' ∨ letter = 'X' then Float.ofNat (digits 16 r)
    else if letter = 'o' ∨ letter = 'O' then Float.ofNat (digits 8 r)
    else if letter = 'b' ∨ letter = 'B' then Float.ofNat (digits 2 r)
    else if (letter :: r).all fun c ↦ '0' ≤ c && c ≤ '7' then Float.ofNat (digits 8 (letter :: r))
    else decimal ('0' :: letter :: r)
  | cs => decimal cs

/-- The text of a number's value, in decimal places. -/
def text (raw : String) : String :=
  let v := value raw
  if v.isFinite then Decimal.plainOfFloat v else "inf"

end Relocation.Syntax.Numeral
