import Relocation.Ledger.Basic

/-!
# Programs over a ledger

A computation that consults a ledger, as the tree of its questions and notes. Each of them is one
indivisible step, so that several computations can take turns on one ledger.
-/

namespace Relocation.Ledger

/-- A computation that consults a ledger. -/
inductive Program (α : Type) where
  | done (a : α)
  /-- Asks for the file of a package specifier. -/
  | target (specifier : String) (next : Option Path → Program α)
  /-- Notes the file of a package specifier. -/
  | remember (specifier : String) (file : Path) (next : Program α)
  /-- Asks whether a specifier has been written. -/
  | contains (specifier : String) (next : Bool → Program α)
  /-- Notes that a specifier has been written. -/
  | mark (specifier : String) (next : Program α)

namespace Program

variable {α β : Type}

/-- A computation followed by another. -/
def bind : Program α → (α → Program β) → Program β
  | done a, f => f a
  | target s next, f => target s fun p ↦ (next p).bind f
  | remember s p next, f => remember s p (next.bind f)
  | contains s next, f => contains s fun b ↦ (next b).bind f
  | mark s next, f => mark s (next.bind f)

instance : Monad Program where
  pure := done
  bind := bind

/-- Takes one step of a computation; none is left once it is done. -/
def step : Program α → Ledger → Option (Program α × Ledger)
  | done _, _ => none
  | target s next, l => some (next (l.target? s), l)
  | remember s p next, l => some (next, l.remember s p)
  | contains s next, l => some (next (l.contains s), l)
  | mark s next, l => some (next, l.mark s)

/-- Takes all steps of a computation. -/
def run : Program α → Ledger → α × Ledger
  | done a, l => (a, l)
  | target s next, l => (next (l.target? s)).run l
  | remember s p next, l => next.run (l.remember s p)
  | contains s next, l => (next (l.contains s)).run l
  | mark s next, l => next.run (l.mark s)

/-- A computation that is over leaves the ledger as it is. -/
@[simp] theorem run_pure (a : α) (l : Ledger) : (pure a : Program α).run l = (a, l) := rfl

/-- A computation and the one behind it run one after the other. -/
@[simp] theorem run_bind (p : Program α) (f : α → Program β) (l : Ledger) :
    (p >>= f).run l = (f (p.run l).1).run (p.run l).2 := by
  change (p.bind f).run l = _
  induction p generalizing l with
  | done a => rfl
  | target s next ih => exact ih (l.target? s) l
  | remember s p next ih => exact ih (l.remember s p)
  | contains s next ih => exact ih (l.contains s) l
  | mark s next ih => exact ih (l.mark s)

/-- Nothing after a computation changes nothing. -/
theorem bind_done (p : Program α) : p.bind done = p := by
  induction p with
  | done a => rfl
  | target s next ih => exact congrArg (target s) (funext ih)
  | remember s p next ih => exact congrArg (remember s p) ih
  | contains s next ih => exact congrArg (contains s) (funext ih)
  | mark s next ih => exact congrArg (mark s) ih

/-- Three computations can be grouped either way. -/
theorem bind_bind {γ : Type} (p : Program α) (f : α → Program β) (g : β → Program γ) :
    (p.bind f).bind g = p.bind fun a ↦ (f a).bind g := by
  induction p with
  | done a => rfl
  | target s next ih => exact congrArg (target s) (funext ih)
  | remember s p next ih => exact congrArg (remember s p) ih
  | contains s next ih => exact congrArg (contains s) (funext ih)
  | mark s next ih => exact congrArg (mark s) ih

instance : LawfulMonad Program :=
  LawfulMonad.mk' Program bind_done (fun _ _ ↦ rfl) bind_bind

end Program

end Relocation.Ledger
