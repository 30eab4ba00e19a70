import Relocation.Text.Quoted

/-!
# Paths

A path is a string of bytes. It means the components between its slashes: empty segments and
single dots mean nothing, except for a dot at the very front of a relative path. Two spellings of
a path are compared by their components.
-/

namespace Relocation

/-- A path as written. -/
structure Path where
  bytes : List UInt8
  deriving DecidableEq, Inhabited, Repr

/-- The name of an entry of a directory. -/
abbrev Name := List UInt8

namespace Path

/-- The byte of a slash. -/
def slash : UInt8 := 47

/-- The name of the directory itself. -/
def dot : Name := [46]

/-- The name of the directory above. -/
def dotDot : Name := [46, 46]

/-- A path from text. -/
def ofString (s : String) : Path := ⟨Text.Utf8.encode s⟩

/-- The text of a path, if it is text. -/
def text? (p : Path) : Option String := Text.Utf8.decode? p.bytes

/-- The path as shown in messages. -/
def display (p : Path) : String := Text.Utf8.decodeLossy p.bytes

/-- The path in quotes. -/
def quoted (p : Path) : String := Text.Quoted.bytes p.bytes

/-- Paths in quotes, as a list. -/
def quotedList (ps : List Path) : String :=
  "[" ++ String.intercalate ", " (ps.map quoted) ++ "]"

/-- The stretches between slashes; there is always one. -/
def segmentsOf : List UInt8 → List Name
  | [] => [[]]
  | b :: bs =>
    if b = slash then [] :: segmentsOf bs
    else
      match segmentsOf bs with
      | [] => [[b]]
      | s :: ss => (b :: s) :: ss

/-- The stretches between the slashes of a path. -/
def segments (p : Path) : List Name := segmentsOf p.bytes

/-- Segments with slashes between them. -/
def joinSegments : List Name → List UInt8
  | [] => []
  | [s] => s
  | s :: ss => s ++ slash :: joinSegments ss

/-- Tests whether a path begins at the root. -/
def isAbsolute (p : Path) : Bool := p.bytes.head? = some slash

/-- A part of a path's meaning. -/
inductive Component where
  | root
  | current
  | parent
  | name (n : Name)
  deriving DecidableEq, Repr

namespace Component

/-- The component that a segment stands for, if it means anything. -/
def ofSegment (s : Name) : Option Component :=
  if s = [] ∨ s = dot then none
  else if s = dotDot then some parent
  else some (name s)

/-- The spelling of a component. -/
def spelling : Component → Name
  | root => [slash]
  | current => dot
  | parent => dotDot
  | name n => n

end Component

/-- What a path means. -/
def components (p : Path) : List Component :=
  let tail := p.segments.filterMap Component.ofSegment
  if p.isAbsolute then .root :: tail
  else if p.segments.head? = some dot then .current :: tail
  else tail

/-- Tests whether two spellings mean the same path. -/
def same (p q : Path) : Bool := p.components = q.components

/-- A path followed by another, which replaces it if it begins at the root. -/
def join (p q : Path) : Path :=
  if q.isAbsolute then q
  else if p.bytes.getLast?.any (· ≠ slash) then ⟨p.bytes ++ slash :: q.bytes⟩
  else ⟨p.bytes ++ q.bytes⟩

/-- Drops segments that mean nothing from the back of reversed segments. A dot that is a relative
path's only segment stays. -/
def trimBack (absolute : Bool) : List Name → List Name
  | [] => []
  | s :: ss =>
    if s = [] ∨ (s = dot ∧ (absolute ∨ ss ≠ [])) then trimBack absolute ss else s :: ss

/-- The segments after the root, from the back, without those at the back that mean nothing. -/
def backSegments (p : Path) : List Name :=
  trimBack p.isAbsolute (if p.isAbsolute then p.segments.tail else p.segments).reverse

/-- The path of reversed segments. -/
def ofBackSegments (absolute : Bool) (ss : List Name) : Path :=
  ⟨(if absolute then [slash] else []) ++ joinSegments ss.reverse⟩

/-- The directory that a path is in; the root and the empty path are in none. -/
def parent? (p : Path) : Option Path :=
  match p.backSegments with
  | [] => none
  | _ :: ss => some (ofBackSegments p.isAbsolute (trimBack p.isAbsolute ss))

/-- The directory that a path is in; the root is in itself. -/
def parentDirectory (p : Path) : Path := p.parent?.getD p

/-- The name of what a path leads to, unless that is the root or a directory above. -/
def fileName? (p : Path) : Option Name :=
  match p.backSegments with
  | [] => none
  | s :: _ => if s = dotDot ∨ s = dot then none else some s

/-- The directories above reversed segments, nearest first: one for each place where the
segments can be cut so that the last one left means something. -/
def ancestorsOf (absolute : Bool) : List Name → List Path
  | [] => []
  | _ :: ss =>
    if trimBack absolute ss = ss then ofBackSegments absolute ss :: ancestorsOf absolute ss
    else ancestorsOf absolute ss

/-- A path and the directories above it, nearest first. -/
def ancestors (p : Path) : List Path := p :: ancestorsOf p.isAbsolute p.backSegments

/-- A path with another name at its end. -/
def withFileName (p : Path) (n : Name) : Path :=
  match p.fileName? with
  | some _ => (p.parent?.getD p).join ⟨n⟩
  | none => p.join ⟨n⟩

end Path

/-- A path that begins at the root. -/
abbrev AbsolutePath := { p : Path // p.isAbsolute }

end Relocation
