import Relocation.Path.Clean

/-!
# File trees

A file tree is a directory: a list of named entries, each a directory, a file or a symbolic link.
Paths are followed from the root, one segment after the other. A link is replaced by the segments
of its target; only so many links are followed on one way.
-/

namespace Relocation

/-- What a name in a directory stands for. -/
inductive Entry where
  | directory (entries : List (Name × Entry))
  | file (content : List UInt8)
  | link (target : Path)
  deriving Inhabited

/-- The names in a directory with what they stand for. Of two equal names the first counts. -/
abbrev Entries := List (Name × Entry)

/-- A file tree: what the root directory holds. -/
structure FileTree where
  entries : Entries
  deriving Inhabited

/-- Why a path leads nowhere, or a file cannot be read. -/
inductive FileError where
  | notFound
  | notDirectory
  | isDirectory
  | tooManyLinks
  | nameTooLong
  | invalidPath
  | notText
  deriving DecidableEq, Repr

/-- The words for a file error. -/
def FileError.message : FileError → String
  | notFound => "No such file or directory (os error 2)"
  | notDirectory => "Not a directory (os error 20)"
  | isDirectory => "Is a directory (os error 21)"
  | tooManyLinks => "Too many levels of symbolic links (os error 40)"
  | nameTooLong => "File name too long (os error 36)"
  | invalidPath => "file name contained an unexpected NUL byte"
  | notText => "stream did not contain valid UTF-8"

namespace FileTree

/-- The empty tree. -/
def empty : FileTree := ⟨[]⟩

/-- Where following a path has led: the names from the root, the last one first, each with what
it stands for. Only directories stand below others. -/
structure Position where
  root : FileTree
  above : List (Name × Entry)

namespace Position

/-- What stands at a position. -/
def here (p : Position) : Entry :=
  match p.above with
  | [] => .directory p.root.entries
  | (_, e) :: _ => e

/-- The canonical path of a position. -/
def path (p : Position) : Path :=
  Path.ofSegments true (p.above.map (·.1)).reverse

/-- The root of the tree that a position is in. -/
def toRoot (p : Position) : Position := { p with above := [] }

end Position

/-- The greatest number of links followed on one way. -/
def maxLinks : Nat := 40

/-- The greatest length of a name. -/
def maxName : Nat := 255

/-- Follows segments from a position. When a link is met, `follow` goes on from the directory
that holds it with the link's segments in front of the rest. -/
def walk (follow : Position → List Name → Except FileError Position) (p : Position) :
    List Name → Except FileError Position
  | [] => .ok p
  | s :: ss =>
    match p.here with
    | .directory entries =>
      if s = [] ∨ s = Path.dot then walk follow p ss
      else if s = Path.dotDot then walk follow { p with above := p.above.tail } ss
      else if maxName < s.length then .error .nameTooLong
      else
        match entries.lookup s with
        | none => .error .notFound
        | some (.link target) =>
          if target.bytes.contains 0 then .error .invalidPath
          else follow (if target.isAbsolute then p.toRoot else p) (target.segments ++ ss)
        | some e => walk follow { p with above := (s, e) :: p.above } ss
    | _ => .error .notDirectory

/-- Follows segments from a position through at most so many links. -/
def walkLinks : Nat → Position → List Name → Except FileError Position
  | 0 => walk fun _ _ ↦ .error .tooManyLinks
  | n + 1 => walk (walkLinks n)

/-- Follows a path from the root. A path that does not begin there leads nowhere. -/
def locate (t : FileTree) (p : Path) : Except FileError Position :=
  if p.bytes.contains 0 then .error .invalidPath
  else if !p.isAbsolute then .error .notFound
  else walkLinks maxLinks ⟨t, []⟩ p.segments

/-- Tests whether a path leads to a file, links followed. -/
def isFile (t : FileTree) (p : Path) : Bool :=
  match t.locate p with
  | .ok found => match found.here with
    | .file _ => true
    | _ => false
  | .error _ => false

/-- Tests whether a path leads to a directory, links followed. -/
def isDirectory (t : FileTree) (p : Path) : Bool :=
  match t.locate p with
  | .ok found => match found.here with
    | .directory _ => true
    | _ => false
  | .error _ => false

/-- Tests whether a path leads anywhere, links followed. -/
def pathExists (t : FileTree) (p : Path) : Bool := (t.locate p).isOk

/-- The canonical path of where a path leads. -/
def canonicalize (t : FileTree) (p : Path) : Except FileError Path :=
  (t.locate p).map Position.path

/-- The bytes of the file that a path leads to. -/
def read (t : FileTree) (p : Path) : Except FileError (List UInt8) :=
  match t.locate p with
  | .ok found => match found.here with
    | .file content => .ok content
    | .directory _ => .error .isDirectory
    | .link _ => .error .tooManyLinks
  | .error e => .error e

/-- The text of the file that a path leads to. -/
def readText (t : FileTree) (p : Path) : Except FileError String := do
  match Text.Utf8.decode? (← t.read p) with
  | some s => return s
  | none => throw .notText

/-- The canonical path of the longest beginning of a clean path that leads somewhere, followed
by the rest. The path is given as written and by its reversed segments; `missing` is the rest. -/
def canonicalizePrefix (t : FileTree) : List Name → List Name → Option Path
  | [], missing =>
    match t.canonicalize ⟨[Path.slash]⟩ with
    | .ok q => some (missing.foldl (fun p n ↦ p.join ⟨n⟩) q)
    | .error _ => none
  | n :: above, missing =>
    match t.canonicalize (Path.ofSegments true (n :: above).reverse) with
    | .ok q => some (missing.foldl (fun p m ↦ p.join ⟨m⟩) q)
    | .error _ => canonicalizePrefix t above (n :: missing)

/-- Follows links in the longest beginning of a path that leads somewhere, and keeps the rest of
its clean form as it is. -/
def canonicalizeExisting (t : FileTree) (p : Path) : Path :=
  let cleaned := p.clean
  if cleaned.isAbsolute then
    (t.canonicalizePrefix cleaned.backSegments []).getD cleaned
  else cleaned

/-- What the directory of a name holds; nothing if the name stands for no directory. -/
def below (n : Name) (entries : Entries) : Entries :=
  match entries.lookup n with
  | some (.directory inner) => inner
  | _ => []

/-- Lets a name stand for an entry. -/
def setEntry (n : Name) (e : Entry) : Entries → Entries
  | [] => [(n, e)]
  | (m, f) :: rest => if m = n then (n, e) :: rest else (m, f) :: setEntry n e rest

/-- Puts an entry at the end of names, making the directories on the way. What is no directory
gives way to one. -/
def insertAt (e : Entry) : List Name → Entries → Entries
  | [], entries => entries
  | [n], entries => setEntry n e entries
  | n :: ns, entries => setEntry n (.directory (insertAt e ns (below n entries))) entries

/-- Takes the entry at the end of names away. -/
def eraseAt : List Name → Entries → Entries
  | [], entries => entries
  | [n], entries => entries.filter (·.1 ≠ n)
  | n :: ns, entries =>
    match entries.lookup n with
    | some (.directory inner) => setEntry n (.directory (eraseAt ns inner)) entries
    | _ => entries

/-- The names on the way to an entry, with links followed on the way but not in the entry. -/
def namesOf (t : FileTree) (p : Path) : List Name :=
  let directory := (t.canonicalizeExisting p.clean.parentDirectory).segments
  Path.cleanSegments true (directory ++ p.clean.fileName?.toList)

/-- Puts an entry at a path, making the directories on the way. A file put in the place of a link
that leads to a file replaces that file. -/
def put (t : FileTree) (p : Path) (e : Entry) : FileTree :=
  match e with
  | .file _ => ⟨insertAt e (Path.cleanSegments true (t.canonicalizeExisting p).segments) t.entries⟩
  | _ => ⟨insertAt e (t.namesOf p) t.entries⟩

/-- Makes a directory at a path, unless there is one. -/
def makeDirectory (t : FileTree) (p : Path) : FileTree :=
  if t.isDirectory p then t else t.put p (.directory [])

/-- Takes the entry at a path away, a directory with all that it holds. -/
def remove (t : FileTree) (p : Path) : FileTree := ⟨eraseAt (t.namesOf p) t.entries⟩

end FileTree

end Relocation
