import Relocation.Proofs.Pass.Traversal
import Relocation.Syntax.Kind

/-!
# What a pass does to a tree

A pass that meets no error decides the sites of the tree, each once and in the order of their
addresses, every specifier on the ledger that the decisions before have left. What it leaves of
the tree is the tree after the edits that the decisions call for, and it reports the calls whose
specifier is unknown. References inside other references are not decided.
-/

namespace Relocation.Pass

open Syntax (Dialect Node)
open Ledger (Program)

variable {κ : Type} [Dialect κ]

/-- What a pass without an error is: decisions `ds` on the sites of the tree, from one ledger to
another, and the tree and the reports that follow from them. -/
structure Relocated (s : Situation) (t : Syntax.Tree κ) (l l' : Ledger) (out : Outcome κ)
    (ds : List Decision) : Prop where
  /-- The sites are decided and nothing else is. -/
  sites : ∀ a r, (∃ d ∈ ds, d.site = (a, r)) ↔ IsSite false t a r
  /-- Each is decided once, in the order of the addresses. -/
  ordered : (ds.map (·.address)).Pairwise (· < ·)
  /-- Each specifier is decided on the ledger that the decisions before have left. -/
  decided : Decided s.action l ds l'
  /-- Excluded declarations are dropped, excluded calls become `null`. -/
  excluded : ∀ d ∈ ds, ∀ site specifier, d.reference.question? = some (site, specifier) →
    s.project.classifier.classify specifier = .excluded →
      d.edit? = some (d.address, if site = .declaration then .drop else .null)
  /-- Calls whose specifier is unknown become `null`. -/
  unknown : ∀ d ∈ ds, d.reference.question? = none → d.edit? = some (d.address, .null)
  /-- They are reported, and nothing else is. -/
  reported : out.findings.unknown = ds.filterMap (·.reference.unknown?)
  /-- The tree that is left differs by the edits of the decisions and by nothing else. -/
  edited : edit (editsOf ds) t = [out.tree]

/-- What is excluded is taken away. -/
theorem edit?_of_excluded {s : Situation} {l l' : Ledger} {d : Decision} {site : Site}
    {specifier : String} (hq : d.reference.question? = some (site, specifier))
    (hc : s.project.classifier.classify specifier = .excluded)
    (ha : (s.action site specifier).run l = (.ok d.action, l')) :
    d.edit? = some (d.address, if site = .declaration then .drop else .null) := by
  obtain ⟨a, r, action⟩ := d
  cases r with
  | declaration source =>
    cases hq
    simp only [Situation.action, hc] at ha
    cases ha
    rfl
  | call span given =>
    cases given with
    | specifier value =>
      cases hq
      simp only [Situation.action, hc] at ha
      cases ha
      rfl
    | unknown => cases hq

/-- A pass without an error decides exactly the sites of the tree, in the order of traversal, and
changes the tree where the decisions say so and nowhere else. -/
theorem relocate_decides_sites (s : Situation) {t : Syntax.Tree κ} {out : Outcome κ} {l l' : Ledger}
    (h : (relocate s.action t).run l = (out, l')) (hf : out.findings.failure = none) :
    ∃ ds, Relocated s t l l' out ds := by
  have hv : Leads (visit s.action t) {} l out.tree out.findings l' := by
    rw [relocate, Program.run_bind] at h
    obtain ⟨rfl, rfl⟩ := Prod.mk.inj h
    rfl
  obtain ⟨ds, hds, hedit⟩ := covers_visit hv hf
  refine ⟨ds, ?_, ?_, hds.decided, ?_, ?_, ?_, hedit⟩
  · intro a r
    rw [← mem_sites_iff, ← hds.about, List.mem_map]
  · have hp := pairwise_sites false t
    rwa [← hds.about, List.map_map] at hp
  · intro d hd site specifier hq hc
    obtain ⟨m, m', ha⟩ := hds.decided.answer_of_mem hd hq
    exact edit?_of_excluded hq hc ha
  · rintro ⟨a, r, action⟩ hd hq
    obtain rfl : action = .replaceWithNull := hds.decided.action_of_unknown hd hq
    match r, hq with
    | .call span .unknown, _ => rfl
  · rw [hds.unknown, List.nil_append]

/-- A project without packages and files, with the place of one file. -/
def bareSituation : Situation where
  project :=
    { dependencyRoots := []
      root := ⟨.ofString "/p", by decide⟩
      output := ⟨.ofString "/out", by decide⟩
      platform := .wechat }
  resolver := {}
  tree := .empty
  placement := ⟨.ofString "/p/a.js", .ofString "/out/a.js"⟩

/-- A statement over a stretch of text that calls `require` with one argument. -/
def requireStatement (lo hi : Nat) (argument : Node) : Node :=
  .node .expressionStatement ⟨lo, hi⟩ [.node .call ⟨lo, hi - 1⟩
    [.node (.identifier "require" false) ⟨lo, lo + 7⟩ [],
      Node.many [.node (.argument false) argument.span [argument]], Node.absent]]

/-- The tree of `import "rax"; require("rax"); require("@weex-module/dom"); require(name);`. -/
def fourSites : Node :=
  .node (.file none) ⟨0, 73⟩
    [.node (.importFrom false .evaluation) ⟨0, 13⟩
      [.node (.text "rax" none) ⟨7, 12⟩ [], Node.many [], Node.absent],
    requireStatement 14 29 (.node (.text "rax" none) ⟨22, 27⟩ []),
    requireStatement 30 58 (.node (.text "@weex-module/dom" none) ⟨38, 56⟩ []),
    requireStatement 59 73 (.node (.identifier "name" false) ⟨67, 71⟩ [])]

/-- A declaration, a call whose specifier is known, one whose specifier is excluded and one whose
specifier is unknown are decided one after the other. -/
theorem relocate_decides_sites_of_fourSites :
    sites false fourSites =
      [([0], .declaration "rax"), ([1, 0], .call ⟨14, 28⟩ (.specifier "rax")),
        ([2, 0], .call ⟨30, 57⟩ (.specifier "@weex-module/dom")),
        ([3, 0], .call ⟨59, 72⟩ .unknown)] ∧
      ∃ out l', (relocate bareSituation.action fourSites).run .empty = (out, l') ∧
        out.findings.failure = none ∧ out.findings.unknown = [⟨59, 72⟩] ∧
        ∃ ds, Relocated bareSituation fourSites .empty l' out ds :=
  ⟨rfl, _, _, rfl, rfl, rfl, relocate_decides_sites bareSituation rfl rfl⟩

/-- The tree of `require(function() { namespace N { import "./b"; } });`. -/
def nestedImport : Node :=
  .node (.file none) ⟨0, 54⟩ [.node .expressionStatement ⟨0, 54⟩ [.node .call ⟨0, 53⟩
    [.node (.identifier "require" false) ⟨0, 7⟩ [],
      Node.many [.node (.argument false) ⟨8, 52⟩ [.node .functionExpression ⟨8, 52⟩
        [Node.absent, .node (.functionParts false false) ⟨8, 52⟩ [Node.many [], Node.many [],
          .node .block ⟨19, 52⟩ [.node (.namespaceBlock false false) ⟨21, 50⟩
            [.node (.identifier "N" false) ⟨31, 32⟩ [],
              .node .moduleBlock ⟨33, 50⟩ [.node (.importFrom false .evaluation) ⟨35, 48⟩
                [.node (.text "./b" none) ⟨42, 47⟩ [], Node.many [], Node.absent]]]],
          Node.absent, Node.absent]]]],
      Node.absent]]]

/-- A declaration inside a call that becomes `null` is not decided: the pass succeeds although no
ledger admits a decision on its source. -/
theorem relocate_passes_over_nested_import :
    (∃ out, (relocate bareSituation.action nestedImport).run .empty = (out, .empty) ∧
      out.findings.failure = none) ∧
    RefersAt false nestedImport [0, 0, 1, 0, 0, 1, 2, 0, 1, 0] (.declaration "./b") ∧
    ¬∃ ds l l', Decided bareSituation.action l ds l' ∧
      ∃ d ∈ ds, d.reference = .declaration "./b" := by
  refine ⟨⟨_, rfl, rfl⟩, ⟨_, _, rfl, .declaration rfl rfl rfl⟩, ?_⟩
  rintro ⟨ds, l, l', hd, d, hm, hr⟩
  obtain ⟨m, m', ha⟩ := hd.answer_of_mem hm (by rw [hr]; rfl)
  cases ha

end Relocation.Pass
