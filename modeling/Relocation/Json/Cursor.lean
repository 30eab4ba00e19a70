import Relocation.Json.Error

/-!
# Reading JSON texts

The state in which a JSON text is read, byte by byte, and the readers of its white space, words,
strings and numbers. An error keeps the state in which it arose: what stands behind a faulty
record still moves the place that is reported.

A text is read from memory or from a stream. From a stream the byte that was looked at counts as
read, which shows in the places of errors.
-/

namespace Relocation.Json

/-- Where reading stands. -/
structure Cursor where
  rest : List UInt8
  line : Nat := 1
  column : Nat := 0
  /-- Whether the text comes from a stream. -/
  streamed : Bool := false
  /-- Whether the next byte was looked at. -/
  looked : Bool := false

/-- A reader of `α` from a JSON text. -/
abbrev Reading (α : Type) := ExceptT Error (StateM Cursor) α

namespace Cursor

/-- The state after the next byte. -/
def advance (c : Cursor) : Cursor :=
  match c.rest with
  | [] => { c with looked := false }
  | b :: bs =>
    if b = 10 then { c with rest := bs, line := c.line + 1, column := 0, looked := false }
    else { c with rest := bs, column := c.column + 1, looked := false }

/-- The place that counts as reached. -/
def place (c : Cursor) : Place :=
  let c' := if c.streamed && c.looked then c.advance else c
  ⟨c'.line, c'.column⟩

end Cursor

/-- The byte of an ASCII character. -/
def byteOf (c : Char) : UInt8 := c.toNat.toUInt8

namespace Reading

/-- Fails at the place reached. -/
def fail {α : Type} (cause : Cause) : Reading α := do
  throw ⟨cause, some (← get).place⟩

/-- Fails behind the next byte. -/
def failAtNext {α : Type} (cause : Cause) : Reading α := do
  let c := (← get).advance
  throw ⟨cause, some ⟨c.line, c.column⟩⟩

/-- Fails at a place that is found later. -/
def failUnplaced {α : Type} (cause : Cause) : Reading α := throw ⟨cause, none⟩

/-- The next byte, looked at but not taken. -/
def peek : Reading (Option UInt8) := do
  let c ← get
  set { c with looked := !c.rest.isEmpty }
  return c.rest.head?

/-- Takes the next byte. -/
def next : Reading (Option UInt8) := do
  let c ← get
  set c.advance
  return c.rest.head?

/-- Takes the byte that was looked at. -/
def discard : Reading Unit := modify Cursor.advance

/-- A bound on what is left. -/
def bound : Reading Nat := do return (← get).rest.length + 1

/-- Tests whether a byte is white space between values. -/
def isSpace (b : UInt8) : Bool := b = 32 || b = 10 || b = 9 || b = 13

/-- Tests whether a byte is a digit. -/
def isDigit (b : UInt8) : Bool := 48 ≤ b && b ≤ 57

/-- Takes bytes of a kind. -/
def skipWhile (kind : UInt8 → Bool) : Nat → Reading Unit
  | 0 => return ()
  | n + 1 => do
    match ← peek with
    | some b =>
      if kind b then
        discard
        skipWhile kind n
      else return ()
    | none => return ()

/-- Takes white space and looks at what follows. -/
def afterSpace : Reading (Option UInt8) := do
  skipWhile isSpace (← bound)
  peek

/-- Takes the rest of a word. -/
def word : List Char → Reading Unit
  | [] => return ()
  | c :: cs => do
    match ← next with
    | none => fail .endInValue
    | some b => if b = byteOf c then word cs else fail .expectedWord

/-- The value of a hexadecimal digit. -/
def hexValue? (b : UInt8) : Option Nat :=
  if isDigit b then some (b.toNat - 48)
  else if 97 ≤ b && b ≤ 102 then some (b.toNat - 87)
  else if 65 ≤ b && b ≤ 70 then some (b.toNat - 55)
  else none

/-- The next byte of a string. -/
def stringByte : Reading UInt8 := do
  match ← next with
  | some b => return b
  | none => fail .endInString

/-- Looks at the next byte of a string. -/
def stringPeek : Reading UInt8 := do
  match ← peek with
  | some b => return b
  | none => fail .endInString

/-- Reads four hexadecimal digits. A text in memory must hold four bytes more. -/
def hexEscape : Reading Nat := do
  let c ← get
  if !c.streamed && c.rest.length < 4 then
    let _ ← skipWhile (fun _ ↦ true) (← bound)
    fail .endInString
  else
    let a ← stringByte
    let b ← stringByte
    let d ← stringByte
    let e ← stringByte
    match hexValue? a, hexValue? b, hexValue? d, hexValue? e with
    | some a, some b, some d, some e => return ((a * 16 + b) * 16 + d) * 16 + e
    | _, _, _, _ => fail .invalidEscape

/-- The bytes of a code point. -/
def codePointBytes (n : Nat) : List UInt8 := Text.Utf8.encode (String.singleton (Char.ofNat n))

/-- Reads a Unicode escape behind its letter; the first half of a surrogate pair brings the
second. -/
def unicodeEscape : Reading (List UInt8) := do
  let n ← hexEscape
  if 0xdc00 ≤ n && n ≤ 0xdfff then fail .loneSurrogate
  else if n < 0xd800 || 0xdbff < n then return codePointBytes n
  else
    if (← stringPeek) ≠ byteOf '\\' then
      discard
      fail .unexpectedEscapeEnd
    else
      discard
      if (← stringPeek) ≠ byteOf 'u' then
        discard
        fail .unexpectedEscapeEnd
      else
        discard
        let m ← hexEscape
        if m < 0xdc00 || 0xdfff < m then fail .loneSurrogate
        else return codePointBytes ((n - 0xd800) * 1024 + (m - 0xdc00) + 0x10000)

/-- The byte that an escape of one letter stands for. -/
def simpleEscape? (b : UInt8) : Option UInt8 :=
  if b = byteOf '"' || b = byteOf '\\' || b = byteOf '/' then some b
  else if b = byteOf 'b' then some 8
  else if b = byteOf 'f' then some 12
  else if b = byteOf 'n' then some 10
  else if b = byteOf 'r' then some 13
  else if b = byteOf 't' then some 9
  else none

/-- Reads an escape behind its backslash. -/
def escape : Reading (List UInt8) := do
  let b ← stringByte
  match simpleEscape? b with
  | some e => return [e]
  | none => if b = byteOf 'u' then unicodeEscape else fail .invalidEscape

/-- The bytes of a string behind its opening quote, up to and with the closing one. -/
def stringBytes : Nat → List UInt8 → Reading (List UInt8)
  | 0, _ => fail .endInString
  | n + 1, acc => do
    let b ← stringByte
    if b = byteOf '"' then return acc.reverse
    else if b = byteOf '\\' then stringBytes n ((← escape).reverse ++ acc)
    else if b < 32 then fail .controlCharacter
    else stringBytes n (b :: acc)

/-- A string behind its opening quote. -/
def string : Reading String := do
  let bytes ← stringBytes (← bound) []
  match Text.Utf8.decode? bytes with
  | some s => return s
  | none => fail .invalidCodePoint

/-- Takes a string behind its opening quote without reading its value. In memory a control
character is refused before it is taken. -/
def skipString : Nat → Reading Unit
  | 0 => fail .endInString
  | n + 1 => do
    let before ← get
    let b ← stringByte
    if b = byteOf '"' then return ()
    else if b = byteOf '\\' then
      let e ← stringByte
      if (simpleEscape? e).isSome then skipString n
      else if e = byteOf 'u' then
        let _ ← hexEscape
        skipString n
      else fail .invalidEscape
    else if b < 32 then
      if !before.streamed then set before
      fail .controlCharacter
    else skipString n

end Reading

end Relocation.Json
