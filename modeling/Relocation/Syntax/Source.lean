import Relocation.Syntax.Grammar.Module

/-!
# Source files

Reads whole files. The grammar is tied to itself here: each use of a reader inside another goes
one level down, and a file of n characters cannot nest more than a few readers per character.
-/

namespace Relocation.Syntax

/-- The way a file is written: with types or without, with markup or without. -/
structure Flavor where
  types : Bool
  markup : Bool
  deriving DecidableEq, Repr

namespace Flavor

/-- The flavour of a file by the end of its name. -/
def ofFileName (name : String) : Flavor :=
  if name.endsWith ".tsx" then ⟨true, true⟩
  else if name.endsWith ".ts" then ⟨true, false⟩
  else ⟨false, true⟩

end Flavor

namespace Grammar

/-- One more level of nesting. -/
def deepen (g : Grammar) : Grammar where
  expression := anyExpression g
  assignment := anyAssignment g
  binary := binaryExpression g
  operand := operandExpression g
  leftHand := leftHandExpression g
  constructed := constructedExpression g
  statement := plainStatement g true
  nested := plainStatement g false
  item := anyItem g
  pattern := innerPattern g
  type := anyType g
  element := markupElement g

/-- The grammar up to a depth of nesting. -/
def ofDepth (depth : Nat) : Grammar := depth.repeat deepen refusing

/-- A whole file, from its first token on. -/
def file (g : Grammar) (hashbang : Option String) : Reader Node := do
  let first ← Reader.here
  let lo := if hashbang.isSome then 0 else first
  let items ← Reader.iterate (fun (acc : List Node) ↦ do
    if (← Reader.peek).kind = .ending then return .inr acc
    return .inl ((← g.item) :: acc)) []
  let hi ← Reader.previousEnd
  let _ ← Reader.advance
  return .node (.file hashbang) ⟨lo, hi⟩ items.reverse

end Grammar

/-- A file as read: its tree and its comments. -/
structure Source where
  tree : Node
  comments : Comments

namespace Source

/-- A text without the mark of its byte order. -/
def withoutMark (text : String) : String :=
  match text.toList with
  | '\ufeff' :: rest => String.ofList rest
  | _ => text

/-- Reads a file, or finds that it cannot be read. -/
def ofText? (flavor : Flavor) (text : String) : Option Source := do
  let cs := text.toList
  let limit := cs.length + 1
  let (hashbang, body) := match cs with
    | '#' :: '!' :: r =>
      let line := r.takeWhile (!Character.isLineTerminator ·)
      (some (String.ofList line), r.drop line.length)
    | _ => (none, cs)
  let start := match hashbang with
    | some line => 2 + line.utf8ByteSize
    | none => 0
  let first := hashbang.map fun line ↦ TokenKind.mark ("#!" ++ line)
  let scan := Reader.next limit first start body {}
  let setting : Setting := { types := flavor.types, markup := flavor.markup, limit := limit }
  let g := Grammar.ofDepth (4 * limit + 16)
  match Grammar.file g hashbang setting scan with
  | .ok tree scan => some ⟨tree, scan.given.append scan.comments⟩
  | .error _ _ => none

end Source

end Relocation.Syntax
