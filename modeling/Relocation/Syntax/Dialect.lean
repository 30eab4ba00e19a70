import Relocation.Syntax.Tree

/-!
# Dialects of syntax trees

The relocation of module specifiers looks at very little of a tree: calls, names, arguments,
parentheses, string literals, lists of module items, and declarations with a source. A `Role`
names what a label means for it. A `Dialect` reads the role off a label and supplies the two
labels that relocation writes.
-/

namespace Relocation.Syntax

/-- What a label means for the relocation of specifiers. -/
inductive Role where
  /-- A call expression; children: the callee, the list of arguments, and the rest. -/
  | call
  /-- An identifier. -/
  | name (text : String)
  /-- One argument of a call; its only child is the expression. -/
  | argument (spread : Bool)
  /-- A parenthesised expression; its only child is the expression inside. -/
  | parens
  /-- A string literal. -/
  | text (value : String)
  /-- A list of module items. -/
  | items
  /-- A declaration with a module source; its first child is the source string. -/
  | sourced
  /-- Anything else. -/
  | plain
  deriving DecidableEq, Repr

/-- A label type whose labels have roles, with the labels of the two literals that relocation
writes: a string without a spelling of its own, and `null`. -/
class Dialect (κ : Type) where
  role : κ → Role
  literal : String → κ
  null : κ

/-- Dialects whose written literals have the roles they stand for. -/
class LawfulDialect (κ : Type) [Dialect κ] : Prop where
  role_literal : ∀ v : String, Dialect.role (Dialect.literal v : κ) = .text v
  role_null : Dialect.role (Dialect.null : κ) = .plain

namespace Tree

variable {κ : Type} [Dialect κ]

/-- The role of the root. -/
def role (t : Tree κ) : Role := Dialect.role t.kind

/-- A string literal over the given span. -/
def literal (value : String) (span : Span) : Tree κ := node (Dialect.literal value) span []

/-- The literal `null` over the given span. -/
def null (span : Span) : Tree κ := node Dialect.null span []

end Tree

end Relocation.Syntax
