/-!
# Shortest decimals

The decimal with the fewest digits that reads back as a given binary number, and of those the
nearest to it. A positive binary number is `m * 2 ^ e`; the numbers that round to it lie between
the points half way to its neighbours, which belong to it if `m` is even.
-/

namespace Relocation.Decimal

/-- A positive binary number with the distance to its lower neighbour: half as far below a power
of two as above it. -/
structure Binary where
  mantissa : Nat
  exponent : Int
  /-- Whether the lower neighbour is only half as far away as the upper one. -/
  nearBelow : Bool
  deriving DecidableEq, Repr

namespace Binary

/-- The value, and its distances down and up to the ends of the interval, as numerators over the
one denominator. -/
def scaled (b : Binary) : Nat × Nat × Nat × Nat :=
  let up := b.exponent.toNat
  let down := (-b.exponent).toNat
  let unit := Nat.pow 2 up
  (4 * b.mantissa * unit, if b.nearBelow then unit else 2 * unit, 2 * unit, 4 * Nat.pow 2 down)

/-- Tests whether a fraction reads back as the number. -/
def reads (b : Binary) (num den : Nat) : Bool :=
  let (v, below, above, d) := b.scaled
  let lhs := num * d
  let lo := (v - below) * den
  let hi := (v + above) * den
  if b.mantissa % 2 = 0 then lo ≤ lhs && lhs ≤ hi else lo < lhs && lhs < hi

/-- The digits and power of ten of the nearest decimal that reads back on the grid of a power of
ten, if any does. An exact tie goes to the even digit. -/
def onGrid (b : Binary) (power : Int) : Option Nat :=
  let (v, _, _, d) := b.scaled
  let up := Nat.pow 10 power.toNat
  let down := Nat.pow 10 (-power).toNat
  -- the value in units of the grid is `v * down / (d * up)`
  let num := v * down
  let den := d * up
  let low := num / den
  let rem := num % den
  let readsAt (n : Nat) : Bool := n ≠ 0 && b.reads (n * up) down
  let nearLow := 2 * rem < den || (2 * rem = den && low % 2 = 0)
  match readsAt low, readsAt (low + 1) with
  | true, true => some (if nearLow then low else low + 1)
  | true, false => some low
  | false, true => some (low + 1)
  | false, false => none

/-- Searches the grids from a power of ten downwards. -/
def search (b : Binary) : Nat → Int → Nat × Int
  | 0, power => (0, power)
  | fuel + 1, power =>
    match b.onGrid power with
    | some n => (n, power)
    | none => search b fuel (power - 1)

/-- The shortest decimal that reads back: its digits and its power of ten. -/
def shortest (b : Binary) : Nat × Int := search b 700 310

/-- The positive number with the given bits of a double. -/
def ofBits (bits : Nat) : Binary :=
  let fraction : Nat := bits % Nat.pow 2 52
  let biased : Nat := bits / Nat.pow 2 52 % Nat.pow 2 11
  if biased = 0 then ⟨fraction, -1074, false⟩
  else ⟨Nat.pow 2 52 + fraction, (biased : Int) - 1075, fraction = 0 && 1 < biased⟩

end Binary

/-- Removes zeros from the end of a decimal's digits. -/
def strip : Nat → Nat → Int → Nat × Int
  | 0, n, power => (n, power)
  | fuel + 1, n, power =>
    if n ≠ 0 ∧ n % 10 = 0 then strip fuel (n / 10) (power + 1) else (n, power)

/-- Writes a decimal: positional where the point falls among the first sixteen places before or
five after the first digit, and otherwise with an exponent. -/
def layout (digits : Nat) (power : Int) : String :=
  let ds := Nat.toDigits 10 digits
  let k : Int := ds.length
  let point := k + power
  let zeros (n : Int) : List Char := List.replicate n.toNat '0'
  if 0 ≤ power ∧ point ≤ 16 then String.ofList (ds ++ zeros power ++ ['.', '0'])
  else if 0 < point ∧ point ≤ 16 then
    String.ofList (ds.take point.toNat ++ '.' :: ds.drop point.toNat)
  else if -5 < point ∧ point ≤ 0 then String.ofList ('0' :: '.' :: zeros (-point) ++ ds)
  else
    let exponent := toString (point - 1)
    match ds with
    | [d] => String.ofList [d] ++ "e" ++ exponent
    | d :: rest => String.ofList (d :: '.' :: rest) ++ "e" ++ exponent
    | [] => "0"

/-- Writes a decimal with all its places and no exponent. A whole number has no point. -/
def positional (digits : Nat) (power : Int) : String :=
  let ds := Nat.toDigits 10 digits
  let point : Int := ds.length + power
  let zeros (n : Int) : List Char := List.replicate n.toNat '0'
  if 0 ≤ power then String.ofList (ds ++ zeros power)
  else if 0 < point then String.ofList (ds.take point.toNat ++ '.' :: ds.drop point.toNat)
  else String.ofList ('0' :: '.' :: zeros (-point) ++ ds)

/-- The shortest text of a double that is finite, given how to write zero and how to write any
other decimal. -/
def shortestText (zero : String) (write : Nat → Int → String) (f : Float) : String :=
  let bits := f.toBits.toNat
  let sign := if Nat.pow 2 63 ≤ bits then "-" else ""
  let magnitude := bits % Nat.pow 2 63
  if magnitude = 0 then sign ++ zero
  else
    let (n, power) := (Binary.ofBits magnitude).shortest
    let (n, power) := strip 20 n power
    sign ++ write n power

/-- The shortest text of a double that is finite, which always shows that it is one. -/
def ofFloat (f : Float) : String := shortestText "0.0" layout f

/-- The shortest text of a double that is finite, without an exponent. -/
def plainOfFloat (f : Float) : String := shortestText "0" positional f

end Relocation.Decimal
