import Relocation.Proofs.Ledger.History
import Relocation.Proofs.Pass.Failure
import Relocation.Proofs.Pass.Relocated

/-!
# Passes that stop

A pass succeeds exactly if each site gets its answer in turn. Otherwise it ends with the error of
the first site that gets none, and everything from this site on is as it was: the tree, the reports
and the specifiers that are written.
-/

namespace Relocation.Pass

open Syntax (Dialect Node)
open Ledger (Program)

variable {κ : Type} [Dialect κ]

/-- What a pass leaves that stops at an address, after the decisions `ds` that lead to the ledger
`m`: what these have made, and nothing else. -/
structure StoppedAt (t : Syntax.Tree κ) (ds : List Decision) (m : Ledger) (a : Address)
    (out : Outcome κ) (l' : Ledger) : Prop where
  /-- The specifiers that are written are those that the decisions have left. -/
  written : l'.written = m.written
  /-- The calls that are reported stand before. -/
  reported : out.findings.unknown = ds.filterMap (·.reference.unknown?)
  /-- The tree differs by the edits of the decisions and by nothing else. -/
  edited : edit (editsOf ds) t = [out.tree]
  /-- From the address on nothing is edited, and each tree still stands. -/
  untouched : ∀ b stands u, ¬b < a → subtree? false t b = some (stands, u) →
    (∀ c, c <+: b ∨ b <+: c → editsOf ds c = none) ∧
      ∃ c, subtree? false out.tree c = some (stands, u)

/-- A pass meets no error exactly if each site gets its answer on the ledger that the answers
before have left. It ends with an error exactly if some site is the first that gets none, and with
the error of that site; then nothing from that site on is decided, reported or changed. -/
theorem relocate_stops_at_first_error (s : Situation) (t : Syntax.Tree κ) (l : Ledger) :
    let out := ((relocate s.action t).run l).1
    let l' := ((relocate s.action t).run l).2
    (out.findings.failure = none ↔
      ∃ ds m, ds.map Decision.site = sites false t ∧ Decided s.action l ds m) ∧
    (∀ e, out.findings.failure = some e ↔
      ∃ ds m f k, FailsAt s.action (sites false t) l ds m f e k) ∧
    ∀ ds m f e k, FailsAt s.action (sites false t) l ds m f e k →
      StoppedAt t ds m f.1 out l' := by
  intro out l'
  have hv : Leads (visit s.action t) {} l out.tree out.findings l' := leads_relocate s.action t l
  have hdecided (hf : out.findings.failure = none) :
      ∃ ds m, ds.map Decision.site = sites false t ∧ Decided s.action l ds m := by
    obtain ⟨ds, hds, -⟩ := covers_visit hv hf
    exact ⟨ds, l', hds.about, hds.decided⟩
  have hfails {e : Error} (he : out.findings.failure = some e) :
      ∃ ds m f, FailsAt s.action (sites false t) l ds m f e l' ∧ StoppedAt t ds m f.1 out l' := by
    obtain ⟨ds, ⟨⟨m, f, hfails⟩, hunknown⟩, hedit⟩ := stops_visit hv rfl he
    obtain ⟨site, specifier, -, hrun⟩ := hfails.fails
    refine ⟨ds, m, f, hfails, ?_, by rw [hunknown, List.nil_append], hedit, ?_⟩
    · exact (Situation.comes_of_run hrun).written_eq (.inr fun v ↦ by simp)
    · intro b stands u hb hu
      have hnone (c : Address) (hc : c <+: b ∨ b <+: c) : editsOf ds c = none :=
        editsOf_eq_none_of_not_lt hfails.listed hb hc
      obtain ⟨t', c, ht', hc⟩ := exists_subtree?_edit hu hnone
      obtain rfl : t' = out.tree := by simpa using ht'.symm.trans hedit
      exact ⟨hnone, c, hc⟩
  have hstops {ds m f e k} (h : FailsAt s.action (sites false t) l ds m f e k) :
      out.findings.failure = some e ∧ StoppedAt t ds m f.1 out l' := by
    cases hfailure : out.findings.failure with
    | none =>
      obtain ⟨es, n, hsites, hes⟩ := hdecided hfailure
      exact absurd (hsites ▸ h.listed) (h.not_prefix hes)
    | some e' =>
      obtain ⟨es, n, g, hes, hstopped⟩ := hfails hfailure
      obtain ⟨rfl, rfl, rfl, rfl⟩ := h.unique hes
      exact ⟨rfl, hstopped⟩
  refine ⟨⟨hdecided, ?_⟩, fun e ↦ ⟨?_, ?_⟩, fun ds m f e k h ↦ (hstops h).2⟩
  · rintro ⟨ds, m, hsites, hds⟩
    refine Option.eq_none_iff_forall_ne_some.mpr fun e he ↦ ?_
    obtain ⟨es, n, f, hes, -⟩ := hfails he
    exact hes.not_prefix hds (hsites ▸ hes.listed)
  · intro he
    obtain ⟨ds, m, f, hds, -⟩ := hfails he
    exact ⟨ds, m, f, l', hds⟩
  · rintro ⟨ds, m, f, k, hds⟩
    exact (hstops hds).1

/-- The tree of `import "rax";import "own";import "rax";`. -/
def threeImports : Node :=
  .node (.file none) ⟨0, 39⟩ <| [(0, "rax"), (13, "own"), (26, "rax")].map fun (lo, source) ↦
    .node (.importFrom false .evaluation) ⟨lo, lo + 13⟩
      [.node (.text source none) ⟨lo + 7, lo + 12⟩ [], Node.many [], Node.absent]

/-- Of three imports in a project without packages, the second one fails. -/
theorem relocate_stops_at_first_error_of_threeImports :
    ∃ ds m e, ds.map (·.address) = [[0]] ∧
      ((relocate bareSituation.action threeImports).run .empty).1.findings.failure = some e ∧
      StoppedAt threeImports ds m [1]
        ((relocate bareSituation.action threeImports).run .empty).1
        ((relocate bareSituation.action threeImports).run .empty).2 := by
  have hrax : (bareSituation.action .declaration "rax").run .empty =
      (.ok (.replace "./npm/jsx2mp-runtime"), _) :=
    Prod.ext (eq_ok_of_toOption (by decide +kernel)) rfl
  have hown : (bareSituation.action .declaration "own").run
      ((bareSituation.action .declaration "rax").run .empty).2 = _ :=
    Situation.Comes.run_eq (.missing _ rfl rfl rfl rfl)
  have hfails : FailsAt bareSituation.action (sites false threeImports) .empty
      [⟨[0], .declaration "rax", .replace "./npm/jsx2mp-runtime"⟩] _
      ([1], .declaration "own") _ _ :=
    ⟨List.prefix_append _ _, .asked rfl hrax (.nil _), .declaration, "own", rfl, hown⟩
  obtain ⟨-, hfailure, hstopped⟩ := relocate_stops_at_first_error bareSituation threeImports .empty
  exact ⟨_, _, _, rfl, (hfailure _).mpr ⟨_, _, _, _, hfails⟩, hstopped _ _ _ _ _ hfails⟩

end Relocation.Pass
