import Relocation.Proofs.Pass.Steps

/-!
# Invariants of a ledger

A computation keeps a property of the ledger if each of its notes does, whatever its questions
are answered. Then each of its steps does too, also when other computations take turns with it,
and so do a whole pass and all passes of a build. One such property is that every file that is
remembered for a package was found by a resolver.
-/

namespace Relocation

namespace Ledger

namespace Program

variable {α β : Type} {P : Ledger → Prop}

/-- All notes of a computation keep a property of the ledger. -/
def Keeps (P : Ledger → Prop) : Program α → Prop
  | done _ => True
  | target _ next => ∀ o, (next o).Keeps P
  | remember s file next => (∀ l, P l → P (l.remember s file)) ∧ next.Keeps P
  | contains _ next => ∀ b, (next b).Keeps P
  | mark s next => (∀ l, P l → P (l.mark s)) ∧ next.Keeps P

/-- A computation without notes keeps every property. -/
theorem keeps_pure (a : α) : (pure a : Program α).Keeps P := trivial

/-- A computation and the one behind it keep what both keep. -/
theorem Keeps.bind {p : Program α} {f : α → Program β} (hp : p.Keeps P)
    (hf : ∀ a, (f a).Keeps P) : (p >>= f).Keeps P := by
  change (p.bind f).Keeps P
  induction p with
  | done a => exact hf a
  | target s next ih => exact fun o ↦ ih o (hp o)
  | remember s file next ih => exact ⟨hp.1, ih hp.2⟩
  | contains s next ih => exact fun b ↦ ih b (hp b)
  | mark s next ih => exact ⟨hp.1, ih hp.2⟩

/-- Each step keeps the property, and what is left keeps it. -/
theorem Keeps.step {p q : Program α} (hp : p.Keeps P) {l m : Ledger}
    (h : p.step l = some (q, m)) (hl : P l) : P m ∧ q.Keeps P := by
  cases p with
  | done a => cases h
  | target s next =>
    cases h
    exact ⟨hl, hp _⟩
  | remember s file next =>
    cases h
    exact ⟨hp.1 l hl, hp.2⟩
  | contains s next =>
    cases h
    exact ⟨hl, hp _⟩
  | mark s next =>
    cases h
    exact ⟨hp.1 l hl, hp.2⟩

/-- All steps together keep the property. -/
theorem Keeps.run {p : Program α} (hp : p.Keeps P) {l : Ledger} (hl : P l) : P (p.run l).2 := by
  induction p generalizing l with
  | done a => exact hl
  | target s next ih | contains s next ih =>
    obtain ⟨hl, hnext⟩ := hp.step rfl hl
    exact ih _ hnext hl
  | remember s file next ih | mark s next ih =>
    obtain ⟨hl, hnext⟩ := hp.step rfl hl
    exact ih hnext hl

end Program

/-- Each file that is remembered is one that its package can mean. -/
def Recalls (K : String → Path → Prop) (l : Ledger) : Prop :=
  ∀ specifier file, l.target? specifier = some file → K specifier file

section

variable {K : String → Path → Prop} {l : Ledger}

/-- What the empty ledger remembers is of any kind. -/
theorem recalls_empty (K : String → Path → Prop) : empty.Recalls K := fun _ _ h ↦ by simp at h

/-- Marking a specifier changes nothing of what is remembered. -/
theorem Recalls.mark (h : l.Recalls K) (specifier : String) : (l.mark specifier).Recalls K :=
  fun r file hr ↦ h r file (by rwa [target?_mark] at hr)

private theorem Recalls.remember (h : l.Recalls K) {specifier : String} {file : Path}
    (hfile : K specifier file) : (l.remember specifier file).Recalls K := by
  intro other found hfound
  by_cases ho : other = specifier
  · subst ho
    rw [target?_remember_self] at hfound
    cases hfound
    exact hfile
  · rw [target?_remember_of_ne l file ho] at hfound
    exact h other found hfound

end

/-- Each file that is remembered for a package was found by a resolver. -/
def Resolved (l : Ledger) : Prop :=
  ∀ specifier file, l.target? specifier = some file →
    ∃ (r : Resolver) (t : FileTree) (searchPaths : List Path),
      r.resolvePackage t specifier searchPaths = .ok file

/-- What the empty ledger remembers was found. -/
theorem resolved_empty : Resolved empty := recalls_empty _

end Ledger

open Ledger (Program)

namespace Situation

variable {K : String → Path → Prop}

/-- A package can mean the files that are found for it. -/
def FindsOnly (s : Situation) (K : String → Path → Prop) : Prop :=
  ∀ specifier file,
    s.resolver.resolvePackage s.tree specifier s.project.searchPaths = .ok file → K specifier file

/-- What is remembered while a package is relocated was found. -/
theorem keeps_relocatePackage {s : Situation} (hs : s.FindsOnly K) (specifier : String) :
    (s.relocatePackage specifier).Keeps (Ledger.Recalls K) := by
  intro o
  cases o with
  | some file => exact Program.keeps_pure _
  | none =>
    dsimp only
    split
    · next file hfile =>
      exact ⟨fun l hl ↦ hl.remember (hs specifier file hfile), Program.keeps_pure _⟩
    · exact Program.keeps_pure _

private theorem keeps_write (value : Except Error String) :
    (write value).Keeps (Ledger.Recalls K) := by
  cases value with
  | ok v => exact ⟨fun l hl ↦ hl.mark v, Program.keeps_pure _⟩
  | error e => exact Program.keeps_pure _

/-- What is remembered while any specifier is decided was found. -/
theorem keeps_recalls {s : Situation} (hs : s.FindsOnly K) (site : Site) (specifier : String) :
    (s.action site specifier).Keeps (Ledger.Recalls K) := by
  unfold action
  dsimp only
  split
  · cases site <;> exact Program.keeps_pure _
  · exact keeps_write _
  · exact keeps_write _
  · split
    · exact Program.keeps_pure _
    · exact (keeps_relocatePackage hs specifier).bind keeps_write
  · cases site with
    | declaration => exact Program.keeps_pure _
    | require =>
      intro written
      cases written <;> exact Program.keeps_pure _

private theorem keeps_action (s : Situation) (site : Site) (specifier : String) :
    (s.action site specifier).Keeps Ledger.Resolved :=
  keeps_recalls (fun _ _ h ↦ ⟨_, _, _, h⟩) site specifier

end Situation

namespace Pass

open Syntax (Dialect)

variable {κ : Type} [Dialect κ] {α β : Type} {P : Ledger → Prop} {decider : Decider}

/-- All notes of a step of a pass keep a property of the ledger. -/
def Keeps (P : Ledger → Prop) (x : Step α) : Prop := ∀ found, (x.run found).Keeps P

private theorem keeps_pure (a : α) : Keeps P (pure a : Step α) := fun _ ↦ trivial

private theorem Keeps.bind {x : Step α} {f : α → Step β} (hx : Keeps P x)
    (hf : ∀ a, Keeps P (f a)) : Keeps P (x >>= f) := fun found ↦ by
  rw [StateT.run_bind]
  exact (hx found).bind fun a ↦ hf a.1 a.2

private theorem composes_keeps (P : Ledger → Prop) : Composes (Keeps P) where
  pure := keeps_pure
  bind := Keeps.bind

/-- A visit keeps what each decision keeps. -/
theorem keeps_visit (hd : ∀ site specifier, (decider site specifier).Keeps P)
    (t : Syntax.Tree κ) : Keeps P (visit decider t) := by
  have hdecides : Decides (Keeps P) decider fun _ _ ↦ True := by
    refine ⟨fun site specifier _ found ↦ ?_, fun span found ↦ ?_⟩
    · unfold decideOn
      dsimp only [StateT.run]
      split
      · exact Program.keeps_pure _
      · refine (hd site specifier).bind fun answer ↦ ?_
        cases answer <;> exact Program.keeps_pure _
    · unfold report
      dsimp only [StateT.run]
      split <;> exact Program.keeps_pure _
  exact (composes_keeps P).visit hdecides fun _ _ _ _ _ ↦ trivial

/-- After a pass, whether it met an error or not, each file that is remembered was found. -/
theorem resolved_relocate (s : Situation) (t : Syntax.Tree κ) {l : Ledger} (hl : l.Resolved) :
    ((relocate s.action t).run l).2.Resolved :=
  Program.Keeps.run ((keeps_visit s.keeps_action t {}).bind fun _ ↦ Program.keeps_pure _) hl

end Pass

end Relocation
