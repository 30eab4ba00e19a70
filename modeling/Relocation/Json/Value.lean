import Relocation.Json.Number

/-!
# Values of JSON texts

Reading a value of any type, of which only strings matter; taking a value without reading it; and
reporting a value of the wrong type.
-/

namespace Relocation.Json.Reading

/-- The end of an array. -/
def endArray : Reading Unit := do
  match ← afterSpace with
  | some b =>
    if b = byteOf ']' then discard
    else if b = byteOf ',' then
      discard
      match ← afterSpace with
      | some d => failAtNext (if d = byteOf ']' then .trailingComma else .trailingCharacters)
      | none => failAtNext .trailingCharacters
    else failAtNext .trailingCharacters
  | none => failAtNext .endInList

/-- The end of an object. -/
def endObject : Reading Unit := do
  match ← afterSpace with
  | some b =>
    if b = byteOf '\x7d' then discard
    else if b = byteOf ',' then failAtNext .trailingComma
    else failAtNext .trailingCharacters
  | none => failAtNext .endInObject

/-- Tests whether another element follows in an array, taking the comma before it. -/
def hasElement (first : Bool) : Reading Bool := do
  match ← afterSpace with
  | none => failAtNext .endInList
  | some b =>
    if b = byteOf ']' then return false
    else if first then return true
    else if b = byteOf ',' then
      discard
      match ← afterSpace with
      | some d => if d = byteOf ']' then failAtNext .trailingComma else return true
      | none => failAtNext .endInValue
    else failAtNext .expectedCommaOrBracket

/-- Tests whether another key follows in an object, taking the comma before it. -/
def hasKey (first : Bool) : Reading Bool := do
  match ← afterSpace with
  | none => failAtNext .endInObject
  | some b =>
    if b = byteOf '\x7d' then return false
    else if first then
      if b = byteOf '"' then return true else failAtNext .keyNotString
    else if b = byteOf ',' then
      discard
      match ← afterSpace with
      | some d =>
        if d = byteOf '"' then return true
        else if d = byteOf '\x7d' then failAtNext .trailingComma
        else failAtNext .keyNotString
      | none => failAtNext .endInValue
    else failAtNext .expectedCommaOrBrace

/-- The colon between a key and its value. -/
def colon : Reading Unit := do
  match ← afterSpace with
  | some b => if b = byteOf ':' then discard else failAtNext .expectedColon
  | none => failAtNext .endInObject

/-- Looks at the beginning of a value. -/
def beginning : Reading UInt8 := do
  match ← afterSpace with
  | some b => return b
  | none => failAtNext .endInValue

mutual

/-- Takes a value. -/
def skipValue : Nat → Reading Unit
  | 0 => fail .endInValue
  | n + 1 => do
    let b ← beginning
    if b = byteOf 'n' then
      discard
      word ['u', 'l', 'l']
    else if b = byteOf 't' then
      discard
      word ['r', 'u', 'e']
    else if b = byteOf 'f' then
      discard
      word ['a', 'l', 's', 'e']
    else if b = byteOf '-' then
      discard
      skipNumber
    else if isDigit b then skipNumber
    else if b = byteOf '"' then
      discard
      skipString (← bound)
    else if b = byteOf '[' then
      discard
      skipElements n true
    else if b = byteOf '\x7b' then
      discard
      skipMembers n true
    else failAtNext .expectedValue

/-- Takes the elements of an array, from the first or from behind one, with its end. -/
def skipElements : Nat → Bool → Reading Unit
  | 0, _ => fail .endInList
  | n + 1, first => do
    match ← afterSpace with
    | none => failAtNext .endInList
    | some b =>
      if b = byteOf ']' then discard
      else if first then
        skipValue n
        skipElements n false
      else if b = byteOf ',' then
        discard
        skipValue n
        skipElements n false
      else failAtNext .expectedCommaOrBracket

/-- Takes the members of an object, from the first or from behind one, with its end. -/
def skipMembers : Nat → Bool → Reading Unit
  | 0, _ => fail .endInObject
  | n + 1, first => do
    match ← afterSpace with
    | none => failAtNext .endInObject
    | some b =>
      if b = byteOf '\x7d' then discard
      else if !first && b ≠ byteOf ',' then failAtNext .expectedCommaOrBrace
      else
        if !first then discard
        match ← afterSpace with
        | none => failAtNext .endInObject
        | some q =>
          if q ≠ byteOf '"' then failAtNext .keyNotString
          else
            discard
            skipString (← bound)
            colon
            skipValue n
            skipMembers n false

end

/-- Reports a value of the wrong type, given what was expected. Words, numbers and strings are
read first, and their own faults win. -/
def wrongType {α : Type} (expected : String) : Reading α := do
  match ← peek with
  | none => failAtNext .expectedValue
  | some b =>
    if b = byteOf 'n' then
      discard
      word ['u', 'l', 'l']
      fail (.wrongType .null expected)
    else if b = byteOf 't' then
      discard
      word ['r', 'u', 'e']
      fail (.wrongType (.boolean true) expected)
    else if b = byteOf 'f' then
      discard
      word ['a', 'l', 's', 'e']
      fail (.wrongType (.boolean false) expected)
    else if b = byteOf '-' then
      discard
      let n ← number false
      fail (.wrongType n.found expected)
    else if isDigit b then
      let n ← number true
      fail (.wrongType n.found expected)
    else if b = byteOf '"' then
      discard
      let s ← string
      fail (.wrongType (.string s) expected)
    else if b = byteOf '[' then fail (.wrongType .sequence expected)
    else if b = byteOf '\x7b' then fail (.wrongType .map expected)
    else failAtNext .expectedValue

mutual

/-- Reads a value of any type, of which a string is kept. `depth` bounds the arrays and objects
around and in it. -/
def anyValue : Nat → Nat → Reading (Option String)
  | 0, _ => fail .endInValue
  | n + 1, depth => do
    let b ← beginning
    if b = byteOf '"' then
      discard
      return some (← string)
    else
      if b = byteOf 'n' then
        discard
        word ['u', 'l', 'l']
      else if b = byteOf 't' then
        discard
        word ['r', 'u', 'e']
      else if b = byteOf 'f' then
        discard
        word ['a', 'l', 's', 'e']
      else if b = byteOf '-' then
        discard
        let _ ← number false
      else if isDigit b then
        let _ ← number true
      else if b = byteOf '[' then
        if depth ≤ 1 then failAtNext .tooDeep
        else
          discard
          anyElements n (depth - 1) true
          endArray
      else if b = byteOf '\x7b' then
        if depth ≤ 1 then failAtNext .tooDeep
        else
          discard
          anyMembers n (depth - 1) true
          endObject
      else failAtNext .expectedValue
      return none

/-- Reads the elements of an array. -/
def anyElements : Nat → Nat → Bool → Reading Unit
  | 0, _, _ => fail .endInList
  | n + 1, depth, first => do
    if ← hasElement first then
      let _ ← anyValue n depth
      anyElements n depth false

/-- Reads the members of an object. -/
def anyMembers : Nat → Nat → Bool → Reading Unit
  | 0, _, _ => fail .endInObject
  | n + 1, depth, first => do
    if ← hasKey first then
      discard
      let _ ← string
      colon
      let _ ← anyValue n depth
      anyMembers n depth false

end

end Relocation.Json.Reading
