import Relocation.Json.Cursor

/-!
# Numbers of JSON texts

A number is an integer if it is written as one and fits into 64 bits, and a double otherwise.
The double is found by one multiplication or division by a power of ten, so it is not always the
nearest one.
-/

namespace Relocation.Json

/-- A number as read. -/
inductive Number where
  | integer (n : Int)
  | float (f : Float)

/-- The number as something found. -/
def Number.found : Number → Found
  | .integer n => .integer n
  | .float f => .float f

namespace Reading

/-- The greatest integer that is kept. -/
def maxSignificand : Nat := Nat.pow 2 64 - 1

/-- A power of ten as a double. -/
def powerOfTen (n : Nat) : Float := Float.ofScientific 1 false n

/-- Scales a double down by more than a double's range of powers of ten. -/
def scaleDown : Nat → Float → Nat → Float
  | 0, f, _ => f
  | fuel + 1, f, n =>
    if n ≤ 308 then f / powerOfTen n
    else if f == 0.0 then f
    else scaleDown fuel (f / 1e308) (n - 308)

/-- The double of a significand and a power of ten. -/
def floatOf (positive : Bool) (significand : Nat) (exponent : Int) : Reading Float := do
  let f := significand.toUInt64.toFloat
  if 0 ≤ exponent then
    if exponent ≤ 308 then
      let g := f * powerOfTen exponent.toNat
      if g.isInf then fail .numberOutOfRange
      else return if positive then g else -g
    else if f == 0.0 then return if positive then f else -f
    else fail .numberOutOfRange
  else
    let n := (-exponent).toNat
    let g := scaleDown (n / 308 + 1) f n
    return if positive then g else -g

/-- Reads digits into a number, as long as it is below a limit. Answers with the number, how
many digits were taken, and whether the limit stopped it. -/
def digitsBelow (limit : Nat) : Nat → Nat → Nat → Reading (Nat × Nat × Bool)
  | 0, n, taken => return (n, taken, false)
  | fuel + 1, n, taken => do
    match ← peek with
    | some b =>
      if isDigit b then
        let n' := n * 10 + (b.toNat - 48)
        if limit < n' then return (n, taken, true)
        else
          discard
          digitsBelow limit fuel n' (taken + 1)
      else return (n, taken, false)
    | none => return (n, taken, false)

/-- Tests whether a byte begins an exponent. -/
def beginsExponent (b : Option UInt8) : Bool := b = some (byteOf 'e') || b = some (byteOf 'E')

/-- Reads an exponent, whose letter was looked at. -/
def exponent (positive : Bool) (significand : Nat) (start : Int) : Reading Float := do
  discard
  let sign ← peek
  let positiveExponent ← if sign = some (byteOf '+') then do
      discard
      pure true
    else if sign = some (byteOf '-') then do
      discard
      pure false
    else pure true
  match ← next with
  | none => fail .endInValue
  | some b =>
    if !isDigit b then fail .invalidNumber
    else
      let (n, _, stopped) ← digitsBelow (Nat.pow 2 31 - 1) (← bound) (b.toNat - 48) 0
      if stopped then
        discard
        if significand ≠ 0 && positiveExponent then fail .numberOutOfRange
        else
          skipWhile isDigit (← bound)
          return if positive then 0.0 else -0.0
      else floatOf positive significand (if positiveExponent then start + n else start - n)

/-- Reads an exponent if there is one, and finishes a double. -/
def finish (positive : Bool) (significand : Nat) (power : Int) : Reading Float := do
  if beginsExponent (← peek) then exponent positive significand power
  else floatOf positive significand power

/-- Reads a fraction, whose point was looked at. -/
def fraction (positive : Bool) (significand : Nat) (power : Int) : Reading Float := do
  discard
  let (n, taken, stopped) ← digitsBelow maxSignificand (← bound) significand 0
  if stopped then
    skipWhile isDigit (← bound)
    finish positive n (power - taken)
  else if taken = 0 then
    match ← peek with
    | some _ => failAtNext .invalidNumber
    | none => failAtNext .endInValue
  else finish positive n (power - taken)

/-- Counts digits, taking them. -/
def countDigits : Nat → Nat → Reading Nat
  | 0, n => return n
  | fuel + 1, n => do
    match ← peek with
    | some b =>
      if isDigit b then
        discard
        countDigits fuel (n + 1)
      else return n
    | none => return n

/-- Reads the rest of a number whose integer digits have been taken. -/
def numberTail (positive : Bool) (significand : Nat) : Reading Number := do
  let b ← peek
  if b = some (byteOf '.') then return .float (← fraction positive significand 0)
  else if beginsExponent b then return .float (← exponent positive significand 0)
  else if positive then return .integer significand
  else if significand = 0 || Nat.pow 2 63 < significand then
    return .float (-significand.toUInt64.toFloat)
  else return .integer (-(significand : Int))

/-- Reads a number behind its sign. -/
def number (positive : Bool) : Reading Number := do
  match ← next with
  | none => fail .endInValue
  | some b =>
    if b = byteOf '0' then
      match ← peek with
      | some d => if isDigit d then failAtNext .invalidNumber else numberTail positive 0
      | none => numberTail positive 0
    else if isDigit b then
      let (n, _, stopped) ← digitsBelow maxSignificand (← bound) (b.toNat - 48) 0
      if stopped then
        let more ← countDigits (← bound) 0
        let after ← peek
        if after = some (byteOf '.') then return .float (← fraction positive n more)
        else return .float (← finish positive n more)
      else numberTail positive n
    else fail .invalidNumber

/-- Takes a number behind its sign without reading its value. -/
def skipNumber : Reading Unit := do
  match ← next with
  | none => fail .invalidNumber
  | some b =>
    if b = byteOf '0' then
      match ← peek with
      | some d => if isDigit d then failAtNext .invalidNumber else skipTail
      | none => skipTail
    else if isDigit b then
      skipWhile isDigit (← bound)
      skipTail
    else fail .invalidNumber
where
  /-- Takes an exponent, whose letter was looked at. -/
  skipExponent : Reading Unit := do
    discard
    let sign ← peek
    if sign = some (byteOf '+') || sign = some (byteOf '-') then discard
    match ← next with
    | some b => if isDigit b then skipWhile isDigit (← bound) else fail .invalidNumber
    | none => fail .invalidNumber
  /-- Takes a fraction and an exponent, if there are any. -/
  skipTail : Reading Unit := do
    let b ← peek
    if b = some (byteOf '.') then
      discard
      let taken ← countDigits (← bound) 0
      if taken = 0 then failAtNext .invalidNumber
      else if beginsExponent (← peek) then skipExponent
      else return ()
    else if beginsExponent b then skipExponent
    else return ()

end Reading

end Relocation.Json
