import Relocation.Path.Basic

/-!
# Ledgers

What a build remembers from file to file: the specifiers that it has written, and the files that
package specifiers were found to name. A specifier is kept once, however often it was written.
-/

namespace Relocation

/-- What a build remembers. -/
structure Ledger where
  /-- The specifiers written so far, each once, the last one first. -/
  written : List String := []
  /-- The files of package specifiers, each specifier once, the last one first. -/
  targets : List (String × Path) := []
  deriving DecidableEq, Inhabited, Repr

namespace Ledger

/-- The ledger of a build that has not begun. -/
def empty : Ledger := {}

/-- Tests whether a specifier has been written. -/
def contains (l : Ledger) (s : String) : Bool := l.written.contains s

/-- Remembers that a specifier has been written. -/
def mark (l : Ledger) (s : String) : Ledger :=
  if l.contains s then l else { l with written := s :: l.written }

/-- How many specifiers have been written. -/
def size (l : Ledger) : Nat := l.written.length

/-- Tests whether nothing has been written. -/
def isEmpty (l : Ledger) : Bool := l.written.isEmpty

/-- The file that a package specifier names, if that is remembered. -/
def target? (l : Ledger) (s : String) : Option Path := l.targets.lookup s

/-- Remembers the file that a package specifier names. -/
def remember (l : Ledger) (s : String) (target : Path) : Ledger :=
  { l with targets := (s, target) :: l.targets.filter (·.1 ≠ s) }

/-- In the empty ledger nothing is written. -/
@[simp] theorem contains_empty (s : String) : empty.contains s = false := rfl

/-- In the empty ledger no file is remembered. -/
@[simp] theorem target?_empty (s : String) : empty.target? s = none := rfl

/-- After a mark, a specifier is written if it is the marked one or was written before. -/
@[simp] theorem contains_mark (l : Ledger) (s r : String) :
    (l.mark s).contains r = (r == s || l.contains r) := by
  unfold mark
  split
  · by_cases hr : r = s <;> simp_all
  · rfl

/-- A mark leaves the remembered files alone. -/
@[simp] theorem target?_mark (l : Ledger) (s r : String) :
    (l.mark s).target? r = l.target? r := by
  by_cases h : l.contains s <;> simp [mark, h, target?]

/-- What is remembered of a specifier is found again. -/
@[simp] theorem target?_remember_self (l : Ledger) (s : String) (p : Path) :
    (l.remember s p).target? s = some p := by
  simp [remember, target?]

/-- What is remembered of a specifier changes nothing for others. -/
theorem target?_remember_of_ne (l : Ledger) {s r : String} (p : Path) (h : r ≠ s) :
    (l.remember s p).target? r = l.target? r := by
  have hb : (r == s) = false := by simpa using h
  simp only [remember, target?, List.lookup_cons, hb]
  induction l.targets with
  | nil => rfl
  | cons t ts ih =>
    obtain ⟨name, file⟩ := t
    by_cases hn : name = s
    · subst hn
      simpa [List.lookup_cons, hb] using ih
    · cases hr : r == name <;> simp_all [List.lookup_cons]

/-- Remembering a file writes nothing. -/
@[simp] theorem contains_remember (l : Ledger) (s r : String) (p : Path) :
    (l.remember s p).contains r = l.contains r := rfl

end Ledger

end Relocation
