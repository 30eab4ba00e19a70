import Relocation.Syntax.Dialect

/-!
# Calls of `require`

Tells the calls that name a module: calls of the bare name `require` with exactly one argument that
is not spread. Parentheses around the argument mean nothing.
-/

namespace Relocation.Pass

open Syntax (Dialect)

variable {κ : Type} [Dialect κ]

/-- What a `require` call is given. -/
inductive Requirement where
  /-- A string literal. -/
  | specifier (value : String)
  /-- Anything else. -/
  | unknown
  deriving DecidableEq, Repr

mutual

/-- What an expression inside any number of parentheses is for a `require` call. -/
def requirement : Syntax.Tree κ → Requirement
  | .node kind _ children =>
    match Dialect.role kind with
    | .text value => .specifier value
    | .parens => firstRequirement children
    | _ => .unknown

/-- What the first of some expressions is for a `require` call. -/
def firstRequirement : List (Syntax.Tree κ) → Requirement
  | [] => .unknown
  | t :: _ => requirement t

end

/-- The only argument of a call, if it is not spread. -/
def onlyArgument? : List (Syntax.Tree κ) → Option (Syntax.Tree κ)
  | [a] =>
    match a.role, a.children with
    | .argument false, [e] => some e
    | _, _ => none
  | _ => none

/-- The argument of a `require` call, given the children of a call. -/
def requireArgument? : List (Syntax.Tree κ) → Option (Syntax.Tree κ)
  | callee :: arguments :: _ =>
    if callee.role = .name "require" then onlyArgument? arguments.children else none
  | _ => none

/-- Puts a literal in the place of the argument of a `require` call, given the call's children.
It covers the whole argument with its parentheses. -/
def withArgument (value : String) : List (Syntax.Tree κ) → List (Syntax.Tree κ)
  | callee :: arguments :: rest =>
    let replaced := arguments.children.map fun a ↦
      Syntax.Tree.node a.kind a.span (a.children.map fun e ↦ Syntax.Tree.literal value e.span)
    callee :: Syntax.Tree.node arguments.kind arguments.span replaced :: rest
  | children => children

/-- The source of a declaration that has one. -/
def source? (t : Syntax.Tree κ) : Option String :=
  match t.role, t.children with
  | .sourced, s :: _ =>
    match s.role with
    | .text value => some value
    | _ => none
  | _, _ => none

/-- Puts a literal in the place of a declaration's source. -/
def withSource (value : String) : Syntax.Tree κ → Syntax.Tree κ
  | .node kind span (s :: rest) => .node kind span (Syntax.Tree.literal value s.span :: rest)
  | t => t

end Relocation.Pass
