import Relocation.Decimal.Shortest
import Relocation.Text.Quoted

/-!
# Errors of JSON texts

Why a JSON text could not be read, and where.
-/

namespace Relocation.Json

/-- What was found where something else was expected. -/
inductive Found where
  | null
  | boolean (b : Bool)
  | integer (n : Int)
  | float (f : Float)
  | string (s : String)
  | sequence
  | map

namespace Found

/-- The words for what was found. -/
def message : Found → String
  | null => "null"
  | boolean b => "boolean \x60" ++ (if b then "true" else "false") ++ "\x60"
  | integer n => "integer \x60" ++ toString n ++ "\x60"
  | float f => "floating point \x60" ++ Decimal.ofFloat f ++ "\x60"
  | string s => "string " ++ Text.Quoted.text s
  | sequence => "sequence"
  | map => "map"

end Found

/-- Why a JSON text could not be read. -/
inductive Cause where
  | endInList
  | endInObject
  | endInString
  | endInValue
  | expectedColon
  | expectedCommaOrBracket
  | expectedCommaOrBrace
  | expectedWord
  | expectedValue
  | invalidEscape
  | invalidNumber
  | numberOutOfRange
  | invalidCodePoint
  | controlCharacter
  | keyNotString
  | loneSurrogate
  | trailingComma
  | trailingCharacters
  | unexpectedEscapeEnd
  | tooDeep
  | wrongType (found : Found) (expected : String)
  | unknownVariant (found : String) (known : List String)
  | missingMember (name : String)
  | duplicateMember (name : String)
  | wrongLength (length : Nat) (expected : String)
  /-- The text could not be fetched. -/
  | unread (reason : String)

namespace Cause

/-- Text between backticks. -/
def ticked (s : String) : String := "\x60" ++ s ++ "\x60"

/-- The words for a cause. -/
def message : Cause → String
  | endInList => "EOF while parsing a list"
  | endInObject => "EOF while parsing an object"
  | endInString => "EOF while parsing a string"
  | endInValue => "EOF while parsing a value"
  | expectedColon => "expected \x60:\x60"
  | expectedCommaOrBracket => "expected \x60,\x60 or \x60]\x60"
  | expectedCommaOrBrace => "expected \x60,\x60 or \x60\x7d\x60"
  | expectedWord => "expected ident"
  | expectedValue => "expected value"
  | invalidEscape => "invalid escape"
  | invalidNumber => "invalid number"
  | numberOutOfRange => "number out of range"
  | invalidCodePoint => "invalid unicode code point"
  | controlCharacter => "control character (\\u0000-\\u001F) found while parsing a string"
  | keyNotString => "key must be a string"
  | loneSurrogate => "lone leading surrogate in hex escape"
  | trailingComma => "trailing comma"
  | trailingCharacters => "trailing characters"
  | unexpectedEscapeEnd => "unexpected end of hex escape"
  | tooDeep => "recursion limit exceeded"
  | wrongType found expected => "invalid type: " ++ found.message ++ ", expected " ++ expected
  | unknownVariant found known =>
    "unknown variant " ++ ticked found ++ ", expected one of " ++
      String.intercalate ", " (known.map ticked)
  | missingMember name => "missing field " ++ ticked name
  | duplicateMember name => "duplicate field " ++ ticked name
  | wrongLength length expected =>
    "invalid length " ++ toString length ++ ", expected " ++ expected
  | unread reason => reason

end Cause

/-- A place in a text: the line from 1, and the bytes of the line before it. -/
structure Place where
  line : Nat
  column : Nat
  deriving DecidableEq, Repr

/-- A cause with its place, once that is known. -/
structure Error where
  cause : Cause
  place : Option Place

/-- The message of an error. -/
def Error.message (e : Error) : String :=
  match e.place with
  | some p =>
    e.cause.message ++ " at line " ++ toString p.line ++ " column " ++ toString p.column
  | none => e.cause.message

end Relocation.Json
