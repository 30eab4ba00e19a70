/-!
# JSON documents

Whole JSON values. The members of an object keep the order in which they are written.
-/

namespace Relocation.Json

/-- A JSON value. A number is kept as it is written. -/
inductive Document where
  | null
  | boolean (value : Bool)
  | number (spelling : String)
  | string (value : String)
  | array (items : List Document)
  | object (members : List (String × Document))
  deriving Inhabited

/-- The members of an object. -/
abbrev Members := List (String × Document)

namespace Document

/-- The string that a value is. -/
def string? : Document → Option String
  | string s => some s
  | _ => none

/-- The natural number that a value is. -/
def nat? : Document → Option Nat
  | number spelling => spelling.toNat?
  | _ => none

/-- Tests whether a value is the null value. -/
def isNull : Document → Bool
  | null => true
  | _ => false

/-- Tests whether a value is a number. -/
def isNumber : Document → Bool
  | number _ => true
  | _ => false

/-- The value of a member of an object. -/
def member? (d : Document) (name : String) : Option Document :=
  match d with
  | object members => members.lookup name
  | _ => none

/-- A natural number as a value. -/
def ofNat (n : Nat) : Document := number (toString n)

end Document

end Relocation.Json
