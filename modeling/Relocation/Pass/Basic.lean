import Relocation.Decision
import Relocation.Pass.Site

/-!
# The pass

Relocates all specifiers of a file in the order of traversal. A declaration with a source is
decided as a whole and nothing inside it is visited; so is a `require` call. A call whose argument
is unknown becomes `null` and is reported. After the first error everything is left as it is.
-/

namespace Relocation.Pass

open Syntax (Dialect Span)
open Ledger (Program)

variable {κ : Type} [Dialect κ]

/-- Decides what becomes of a specifier. -/
abbrev Decider := Site → String → Program (Except Error Action)

/-- What a pass has met so far. -/
structure Findings where
  /-- The calls whose argument is unknown, in the order of traversal. -/
  unknown : List Span := []
  /-- The first error. -/
  failure : Option Error := none

/-- A step of a pass. -/
abbrev Step := StateT Findings Program

/-- Decides what becomes of a specifier; after an error nothing is decided any more. -/
def decideOn (decider : Decider) (site : Site) (specifier : String) : Step Action := fun found ↦
  if found.failure.isSome then pure (.keep, found)
  else do
    match ← decider site specifier with
    | .ok action => return (action, found)
    | .error e => return (.keep, { found with failure := some e })

/-- Reports a call whose argument is unknown; after an error nothing is reported any more. -/
def report (call : Span) : Step Action := fun found ↦
  if found.failure.isSome then pure (.keep, found)
  else pure (.replaceWithNull, { found with unknown := found.unknown ++ [call] })

/-- What becomes of a `require` call. -/
def requireAction (decider : Decider) (call : Span) : Requirement → Step Action
  | .specifier value => decideOn decider .require value
  | .unknown => report call

/-- A `require` call after an action. -/
def applyToCall (kind : κ) (span : Span) (children : List (Syntax.Tree κ)) : Action → Syntax.Tree κ
  | .keep => .node kind span children
  | .replace value => .node kind span (withArgument value children)
  | .remove | .replaceWithNull => Syntax.Tree.null span

/-- A declaration after an action. -/
def applyToDeclaration (t : Syntax.Tree κ) : Action → List (Syntax.Tree κ)
  | .keep => [t]
  | .replace value => [withSource value t]
  | .remove | .replaceWithNull => []

mutual

/-- Relocates the specifiers in a tree. -/
def visit (decider : Decider) : Syntax.Tree κ → Step (Syntax.Tree κ)
  | .node kind span children =>
    match Dialect.role kind with
    | .items => do return .node kind span (← visitItems decider children)
    | .call =>
      match requireArgument? children with
      | some argument => do
        let action ← requireAction decider span (requirement argument)
        return applyToCall kind span children action
      | none => do return .node kind span (← visitAll decider children)
    | _ => do return .node kind span (← visitAll decider children)

/-- Relocates the specifiers in trees that stand beside each other. -/
def visitAll (decider : Decider) : List (Syntax.Tree κ) → Step (List (Syntax.Tree κ))
  | [] => return []
  | t :: ts => do
    let t ← visit decider t
    return t :: (← visitAll decider ts)

/-- Relocates the specifiers in a list of module items. -/
def visitItems (decider : Decider) : List (Syntax.Tree κ) → Step (List (Syntax.Tree κ))
  | [] => return []
  | t :: ts => do
    let kept ←
      match source? t with
      | some specifier => applyToDeclaration t <$> decideOn decider .declaration specifier
      | none => (fun t ↦ [t]) <$> visit decider t
    return kept ++ (← visitItems decider ts)

end

/-- What a pass makes of a file. -/
structure Outcome (κ : Type) where
  tree : Syntax.Tree κ
  findings : Findings

/-- Relocates all specifiers of a file. -/
def relocate (decider : Decider) (t : Syntax.Tree κ) : Program (Outcome κ) := do
  let (tree, findings) ← (visit decider t).run {}
  return ⟨tree, findings⟩

end Relocation.Pass
