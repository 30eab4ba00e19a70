/-!
# Labelled syntax trees

A tree is a label, the stretch of source text it covers and its children in traversal order.
The label type is a parameter: the same traversals serve trees read from source text and trees
read from their JSON form.
-/

namespace Relocation.Syntax

/-- A half-open stretch of source text, in bytes from its start. -/
structure Span where
  lo : Nat
  hi : Nat
  deriving DecidableEq, Inhabited, Repr

/-- Trees whose nodes carry a label from `κ`; children stand in traversal order. -/
inductive Tree (κ : Type) where
  | node (kind : κ) (span : Span) (children : List (Tree κ))

namespace Tree

variable {κ : Type}

/-- The label of the root. -/
def kind : Tree κ → κ
  | node k _ _ => k

/-- The source text that the root covers. -/
def span : Tree κ → Span
  | node _ s _ => s

/-- The children of the root, in traversal order. -/
def children : Tree κ → List (Tree κ)
  | node _ _ cs => cs

/-- The label of a node is the one it was given. -/
@[simp] theorem kind_node (k : κ) (s : Span) (cs : List (Tree κ)) : (node k s cs).kind = k := rfl

/-- The span of a node is the one it was given. -/
@[simp] theorem span_node (k : κ) (s : Span) (cs : List (Tree κ)) : (node k s cs).span = s := rfl

/-- The children of a node are those it was given. -/
@[simp] theorem children_node (k : κ) (s : Span) (cs : List (Tree κ)) :
    (node k s cs).children = cs := rfl

instance [Inhabited κ] : Inhabited (Tree κ) := ⟨node default default []⟩

end Tree

end Relocation.Syntax
