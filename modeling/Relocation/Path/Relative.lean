import Relocation.Path.Clean

/-!
# Relative paths

The way from one directory to another path: up to their last common directory, and down from
there.
-/

namespace Relocation.Path

/-- The components of the way from one path to another, given by their components. A common
beginning is dropped; a leading dot of the start means nothing; from below a directory above
nothing is known, so there is no way out of it. -/
def stepsBetween (target start : List Component) (begun : Bool) : Option (List Component) :=
  match target, start with
  | [], [] => some []
  | ts, [] => some ts
  | [], _ :: ss => (stepsBetween [] ss true).map (Component.parent :: ·)
  | t :: ts, s :: ss =>
    if !begun && t = s then stepsBetween ts ss false
    else if s = .current then (stepsBetween ts ss true).map (t :: ·)
    else if s = .parent then none
    else some (.parent :: ss.map (fun _ ↦ Component.parent) ++ t :: ts)

/-- The path of components, each read from where the ones before lead. -/
def ofComponents (cs : List Component) : Path :=
  cs.foldl (fun p c ↦ p.join ⟨c.spelling⟩) ⟨[]⟩

/-- The way from one path to another as they are written. -/
def difference? (target start : Path) : Option Path :=
  if target.isAbsolute = start.isAbsolute then
    (stepsBetween target.components start.components false).map ofComponents
  else if target.isAbsolute then some target
  else none

/-- The way from one path to another, both cleaned first, as text. It is empty if they are the
same. -/
def relative (start target : Path) : Except Error String :=
  let start := start.clean
  let target := target.clean
  match difference? target start with
  | none => .error (.noRelativePath start target)
  | some way =>
    match way.text? with
    | some t => .ok t
    | none => .error (.notText way)

/-- Marks a relative path as such: it begins with a dot segment afterwards. -/
def markRelative (way : String) : String :=
  if way = "." ∨ way = ".." ∨ way.startsWith "./" ∨ way.startsWith "../" then way
  else "./" ++ way

end Relocation.Path
