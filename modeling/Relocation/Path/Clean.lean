import Relocation.Path.Basic

/-!
# Clean paths

The clean form of a path has no empty segments, no dots and no segment that a later pair of dots
takes back. It is found by reading the segments from the front with a stack of those kept.
Only text has a clean form; bytes that are no text are cleaned as if nothing were written.
-/

namespace Relocation.Path

/-- Reads one segment, given the segments kept so far, the last one first. Two dots take back the
last segment; at the root they mean nothing, and in front of a relative path they stay. -/
def keepSegment (absolute : Bool) (kept : List Name) (s : Name) : List Name :=
  if s = [] ∨ s = dot then kept
  else if s = dotDot then
    match kept with
    | [] => if absolute then [] else [dotDot]
    | top :: below => if top = dotDot then dotDot :: kept else below
  else s :: kept

/-- The segments of the clean form. -/
def cleanSegments (absolute : Bool) (ss : List Name) : List Name :=
  (ss.foldl (keepSegment absolute) []).reverse

/-- The path of segments. -/
def ofSegments (absolute : Bool) (ss : List Name) : Path :=
  if absolute then ⟨slash :: joinSegments ss⟩
  else if ss = [] then ⟨dot⟩
  else ⟨joinSegments ss⟩

/-- The clean form of a path. -/
def clean (p : Path) : Path :=
  if p.text?.isNone then ⟨dot⟩
  else ofSegments p.isAbsolute (cleanSegments p.isAbsolute p.segments)

/-- Why a path could not be computed. -/
inductive Error where
  /-- The base of a join does not begin at the root. -/
  | baseNotAbsolute (base : Path)
  /-- There is no way from one path to the other. -/
  | noRelativePath (start target : Path)
  /-- A path is no text. -/
  | notText (path : Path)
  deriving DecidableEq, Repr

/-- The message of an error. -/
def Error.message : Error → String
  | baseNotAbsolute base => "Base path is not absolute: " ++ base.display
  | noRelativePath start target =>
    "Cannot express " ++ target.display ++ " relative to " ++ start.display
  | notText path => "Path is not valid unicode: " ++ path.display

/-- The clean form of a path that is read from an absolute base. -/
def resolve (base path : Path) : Except Error Path :=
  if base.isAbsolute then .ok (base.join path).clean else .error (.baseNotAbsolute base)

end Relocation.Path
