import Relocation.Json.Value

/-!
# Records

Reading a JSON text as a record with known members. A record is written as an object, with its
members in any order and others between them, or as an array of the members' values in the order
of their declaration.
-/

namespace Relocation.Json

/-- The types of members. -/
inductive MemberType where
  /-- A string. -/
  | string
  /-- A string, or null for none. -/
  | optionalString
  /-- An array of strings. -/
  | strings
  /-- A truth value. -/
  | flag
  /-- One of several names. -/
  | variant (names : List String)
  /-- Anything, or null for none; only a string is kept. -/
  | anything
  deriving DecidableEq, Repr

/-- Values of members. -/
inductive MemberValue where
  | none
  | string (s : String)
  | strings (ss : List String)
  | flag (b : Bool)
  deriving DecidableEq, Inhabited, Repr

namespace MemberValue

/-- The string that a value is. -/
def string? : MemberValue → Option String
  | string s => some s
  | _ => Option.none

/-- The strings that a value consists of. -/
def stringList : MemberValue → List String
  | strings ss => ss
  | _ => []

/-- Tests whether a value is the true flag. -/
def isTrue : MemberValue → Bool
  | flag b => b
  | _ => false

end MemberValue

/-- A member of a record. -/
structure Member where
  name : String
  type : MemberType
  /-- What the member is if it is not written. -/
  fallback : Option MemberValue
  deriving Repr

/-- The shape of a record. -/
structure Shape where
  /-- What the record is called in messages. -/
  title : String
  members : List Member
  deriving Repr

/-- The nesting that a text may have. -/
def maxDepth : Nat := 128

namespace Reading

/-- Puts an error that has no place yet at the place reached. -/
def placed {α : Type} (r : Reading α) : Reading α := do
  tryCatch r fun e ↦ do
    match e.place with
    | some _ => throw e
    | none => throw ⟨e.cause, some (← get).place⟩

/-- Reads a string. -/
def stringValue (expected : String) : Reading String := do
  if (← beginning) = byteOf '"' then
    discard
    string
  else wrongType expected

/-- Reads the strings of an array. -/
def stringElements : Nat → Bool → Reading (List String)
  | 0, _ => fail .endInList
  | n + 1, first => do
    if ← hasElement first then
      let s ← stringValue "a string"
      return s :: (← stringElements n false)
    else return []

/-- Reads one of several names. -/
def variantName (names : List String) : Reading String := do
  let s ← stringValue "variant identifier"
  if names.contains s then return s else fail (.unknownVariant s names)

/-- Reads a value of a type. -/
def memberValue (type : MemberType) : Reading MemberValue := do
  match type with
  | .string => return .string (← stringValue "a string")
  | .optionalString =>
    if (← afterSpace) = some (byteOf 'n') then
      discard
      word ['u', 'l', 'l']
      return .none
    else return .string (← stringValue "a string")
  | .strings =>
    if (← beginning) = byteOf '[' then
      discard
      let ss ← stringElements (← bound) true
      endArray
      return .strings ss
    else wrongType "a sequence"
  | .flag =>
    let b ← beginning
    if b = byteOf 't' then
      discard
      word ['r', 'u', 'e']
      return .flag true
    else if b = byteOf 'f' then
      discard
      word ['a', 'l', 's', 'e']
      return .flag false
    else wrongType "a boolean"
  | .variant names =>
    let b ← beginning
    if b = byteOf '"' then return .string (← variantName names)
    else if b = byteOf '\x7b' then
      discard
      let name ← variantName names
      colon
      if (← beginning) = byteOf 'n' then
        discard
        word ['u', 'l', 'l']
      else wrongType "unit"
      match ← afterSpace with
      | some e =>
        if e = byteOf '\x7d' then
          discard
          return .string name
        else fail .expectedValue
      | none => fail .endInObject
    else failAtNext .expectedValue
  | .anything =>
    if (← afterSpace) = some (byteOf 'n') then
      discard
      word ['u', 'l', 'l']
      return .none
    else
      match ← anyValue (← bound) (maxDepth - 1) with
      | some s => return .string s
      | none => return .none

/-- The members read so far, by name. -/
abbrev ReadMembers := List (String × MemberValue)

/-- Reads the members of an object. -/
def objectMembers (members : List Member) : Nat → Bool → ReadMembers → Reading ReadMembers
  | 0, _, _ => fail .endInObject
  | n + 1, first, found => do
    if ← hasKey first then
      discard
      let key ← string
      match members.find? (·.name = key) with
      | some m =>
        if found.any (·.1 = key) then failUnplaced (.duplicateMember key)
        else
          colon
          let v ← memberValue m.type
          objectMembers members n false ((key, v) :: found)
      | none =>
        colon
        skipValue (← bound)
        objectMembers members n false found
    else return found

/-- The values of all members in the order of their declaration. -/
def complete (members : List Member) (found : ReadMembers) : Reading (List MemberValue) :=
  members.mapM fun m ↦
    match found.lookup m.name, m.fallback with
    | some v, _ => return v
    | none, some v => return v
    | none, none => failUnplaced (.missingMember m.name)

/-- Reads the values of members from an array. -/
def arrayMembers (title : String) (total : Nat) : List Member → Nat → Bool →
    Reading (List MemberValue)
  | [], _, _ => return []
  | m :: ms, index, more => do
    let here ← if more then hasElement (index = 0) else pure false
    let v ←
      if here then memberValue m.type
      else
        match m.fallback with
        | some v => pure v
        | none => failUnplaced (.wrongLength index
            (title ++ " with " ++ toString total ++ " elements"))
    return v :: (← arrayMembers title total ms (index + 1) here)

/-- Reads a record: the values of its members in the order of their declaration. After a fault
of the record as a whole its end is still read, which moves the place of the error. -/
def record (shape : Shape) : Reading (List MemberValue) := placed do
  let b ← beginning
  if b = byteOf '[' then
    discard
    enclosed (arrayMembers shape.title shape.members.length shape.members 0 true) endArray
  else if b = byteOf '\x7b' then
    discard
    enclosed
      (do complete shape.members (← objectMembers shape.members (← bound) true [])) endObject
  else wrongType shape.title
where
  /-- Reads a record and its end. -/
  enclosed (inner : Reading (List MemberValue)) (close : Reading Unit) :
      Reading (List MemberValue) := do
    let result ← tryCatch (do return Except.ok (← inner)) fun e ↦ return Except.error e
    let closed ← tryCatch (do
      close
      return Except.ok ()) fun e ↦ return Except.error e
    match result, closed with
    | .ok vs, .ok () => return vs
    | .error e, _ => throw e
    | _, .error e => throw e

/-- Finds nothing but white space behind a value. -/
def atEnd : Reading Unit := do
  match ← afterSpace with
  | some _ => failAtNext .trailingCharacters
  | none => return ()

end Reading

/-- Reads a whole text as a record. -/
def readRecord (shape : Shape) (streamed : Bool) (bytes : List UInt8) :
    Except Error (List MemberValue) :=
  let reading : Reading (List MemberValue) := do
    let values ← Reading.record shape
    Reading.atEnd
    return values
  (reading.run { rest := bytes, streamed := streamed }).1

end Relocation.Json
