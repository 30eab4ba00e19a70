import Relocation.Proofs.Decision.Guard
import Relocation.Proofs.Pass.Parts
import Relocation.Proofs.Pass.Shape
import Relocation.Syntax.Kind

/-!
# Packages that are excluded

A pass drops the declarations and the `require` calls of packages that the platform excludes, and
writes no others in their place. It overlooks import assignments and optional calls of `require`,
and all that lies in a declaration or call which it leaves; these still name excluded packages if
they did before.
-/

namespace Relocation

open Relocation.Path (markRelative)

/-- A build writes nothing that is excluded, if neither the name of the runtime's own build is nor
what is made of the ways to copies. -/
theorem Project.Emits.not_excluded {p : Project} {v : String} (h : p.Emits v)
    (hown : p.classifier.classify p.ownBuild ≠ .excluded)
    (hcopies : ∀ way, p.classifier.classify (p.normalize (markRelative way)) ≠ .excluded) :
    p.classifier.classify v ≠ .excluded := by
  cases h with
  | build _ own => rwa [own]
  | runtime _ class_eq | output _ class_eq => simp [class_eq]
  | copy _ way changed => exact changed ▸ hcopies way

namespace Situation

variable {s : Situation} {site : Site} {specifier v : String} {l l' : Ledger}

/-- No excluded specifier is kept. -/
theorem Comes.not_excluded_of_keep (h : s.Comes specifier l site (.ok .keep) l') :
    s.classOf specifier ≠ .excluded := by
  generalize hanswer : Except.ok Action.keep = answer at h
  cases h with
  | kept _ class_eq | known class_eq => simp [class_eq]
  | dropped | nulled | missing => cases hanswer
  | located => cases hw : s.wayToLocal specifier <;> simp [hw, Except.map] at hanswer
  | directed => cases hw : s.wayToFramework specifier <;> simp [hw, Except.map] at hanswer
  | @copied _ file => cases hw : s.wayToPackage file <;> simp [hw, Except.map] at hanswer

/-- Nor is any written. -/
theorem Comes.not_excluded_of_replace (h : s.Comes specifier l site (.ok (.replace v)) l')
    (hown : s.classOf s.project.ownBuild ≠ .excluded)
    (hcopies : ∀ way, s.classOf (s.project.normalize (markRelative way)) ≠ .excluded) :
    s.classOf v ≠ .excluded := by
  have hemits := h.emits (v := v)
  generalize hanswer : Except.ok (Action.replace v) = answer at h
  cases h with
  | dropped | nulled | kept | known | missing => cases hanswer
  | located =>
    obtain ⟨-, -, way, -, rfl⟩ := wayToLocal_eq_ok_iff.mp (map_replace_eq_ok_iff.mp hanswer.symm)
    simp [classOf, Specifier.classify_markRelative]
  | directed _ class_eq =>
    exact (hemits ⟨rfl, class_eq.imp_right .inl⟩).not_excluded hown hcopies
  | copied _ class_eq =>
    exact (hemits ⟨rfl, .inr (.inr class_eq)⟩).not_excluded hown hcopies

end Situation

namespace Pass

open Syntax (Kind Node)

/-! ### Forms that name a module -/

/-- An import assignment, or a call of `require` in a chain, names a module by a literal. -/
inductive Overlooked : Node → String → Prop where
  | assignment {t name reference source : Node} {exported typeOnly : Bool} {v : String}
      (kind : t.kind = .importEquals exported typeOnly) (children : t.children = [name, reference])
      (external : reference.kind = .externalReference) (given : reference.children = [source])
      (text : source.role = .text v) : Overlooked t v
  | optional {t callee arguments argument e : Node} {rest : List Node} {v : String}
      (kind : t.kind = .optionalCall ∨ t.kind = .chainedCall)
      (children : t.children = callee :: arguments :: rest) (name : callee.role = .name "require")
      (listed : arguments.kind = .many) (only : arguments.children = [argument])
      (unspread : argument.role = .argument false) (expression : argument.children = [e])
      (literal : requirement e = .specifier v) : Overlooked t v

/-- A static import or a call of `require` names a module by a literal. -/
inductive Names (inItems : Bool) (t : Node) (v : String) : Prop where
  | reference {r : Reference} {site : Site} (refers : IsReference inItems t r)
      (question : r.question? = some (site, v)) : Names inItems t v
  | overlooked (overlooked : Overlooked t v) : Names inItems t v

/-- Somewhere in a tree a module is named. -/
def Contains (t : Node) (v : String) : Prop :=
  ∃ a stands u, subtree? false t a = some (stands, u) ∧ Names stands u v

/-- Outside of references a module is named by what is overlooked. -/
def Overlooks (t : Node) (v : String) : Prop :=
  ∃ a stands u, subtree? false t a = some (stands, u) ∧ ¬Enclosed false t a ∧ Overlooked u v

/-- Inside a reference a module is named. -/
def Encloses (t : Node) (v : String) : Prop :=
  ∃ a stands u, subtree? false t a = some (stands, u) ∧ Enclosed false t a ∧ Names stands u v

section

variable {decider : Decider} {inItems : Bool} {t t' u : Node} {v : String}

private theorem Overlooked.two_le (h : Overlooked t v) : 2 ≤ t.children.length := by
  cases h with
  | assignment _ children => simp [children]
  | optional _ children => simp [children]

private theorem Overlooked.reference?_eq_none (h : Overlooked t v) (inItems : Bool) :
    reference? inItems t = none := by
  cases h with
  | assignment kind => simp [reference?, Syntax.Tree.role, kind, Syntax.Dialect.role, Kind.role]
  | optional kind =>
    rcases kind with kind | kind <;>
      simp [reference?, Syntax.Tree.role, kind, Syntax.Dialect.role, Kind.role]

/-- Away from lists of module items, whatever names a module has more than one child. -/
theorem Names.two_le (h : Names false t v) : 2 ≤ t.children.length := by
  cases h with
  | reference refers =>
    cases refers with
    | call _ children => simp [children]
  | overlooked overlooked => exact overlooked.two_le

/-- What plays no part in the pass stays what it is around its children. -/
theorem Alike.of_plain {k : Kind} (h : Alike decider t u) (hkind : t.kind = k)
    (hplain : k.role = .plain) (hnull : k ≠ .null) :
    u.kind = k ∧ List.Forall₂ (Alike decider) t.children u.children := by
  subst hkind
  have hrole : t.role = .plain := hplain
  exact h.node (by simp [hrole]) (by simp [hrole]) hnull

/-- What a pass makes of an overlooked form, or makes one of, is one too. -/
theorem Overlooked.of_alike (h : Overlooked t v) (hu : Alike decider t u) : Overlooked u v := by
  cases h with
  | assignment kind children external given text =>
    obtain ⟨kind', hchildren⟩ := hu.of_plain kind rfl nofun
    simp only [children, List.forall₂_cons_left_iff, List.forall₂_nil_left_iff] at hchildren
    obtain ⟨name', _, -, ⟨reference', _, hreference, rfl, rfl⟩, children'⟩ := hchildren
    obtain ⟨external', hgiven⟩ := hreference.of_plain external rfl nofun
    simp only [given, List.forall₂_cons_left_iff, List.forall₂_nil_left_iff] at hgiven
    obtain ⟨source', _, hsource, rfl, given'⟩ := hgiven
    obtain ⟨text', -⟩ := hsource.role_eq text rfl
    exact .assignment kind' children' external' given' text'
  | optional kind children name listed only unspread expression literal =>
    obtain ⟨kind', hchildren⟩ : (u.kind = .optionalCall ∨ u.kind = .chainedCall) ∧
        List.Forall₂ (Alike decider) t.children u.children := by
      rcases kind with kind | kind
      · exact (hu.of_plain kind rfl nofun).imp_left .inl
      · exact (hu.of_plain kind rfl nofun).imp_left .inr
    simp only [children, List.forall₂_cons_left_iff] at hchildren
    obtain ⟨callee', _, hcallee, ⟨arguments', rest', harguments, -, rfl⟩, children'⟩ := hchildren
    obtain ⟨name', -⟩ := hcallee.role_eq name rfl
    obtain ⟨listed', honly⟩ := harguments.of_plain listed rfl nofun
    simp only [only, List.forall₂_cons_left_iff, List.forall₂_nil_left_iff] at honly
    obtain ⟨argument', _, hargument, rfl, only'⟩ := honly
    obtain ⟨unspread', hexpression⟩ := hargument.role_eq unspread rfl
    simp only [expression, List.forall₂_cons_left_iff, List.forall₂_nil_left_iff] at hexpression
    obtain ⟨e', _, he, rfl, expression'⟩ := hexpression
    exact .optional kind' children' name' listed' only' unspread' expression'
      (he.requirement_eq literal)

private theorem Becomes.alike (h : Becomes decider inItems t t')
    (hr : reference? inItems t = none) : Alike decider t t' := by
  cases h with
  | visited _ leads => exact .inl ⟨_, _, _, _, leads⟩
  | declared source => cases hr.symm.trans (reference?_of_source?_eq_some source)

/-- What is overlooked outside of references is what was overlooked there before. -/
theorem Becomes.overlooks_iff (h : Becomes decider false t t') (hc : CallsApart t) :
    Overlooks t' v ↔ Overlooks t v := by
  constructor
  · rintro ⟨a, stands, u', hu', he', ho⟩
    obtain ⟨b, u, hu, he, hbecomes⟩ := h.exists_before hu' he'
    have hr := hbecomes.reference?_eq_none_before (ho.reference?_eq_none stands)
      (List.ne_nil_of_length_pos (Nat.lt_of_lt_of_le Nat.two_pos ho.two_le))
    exact ⟨b, stands, u, hu, he, ho.of_alike (hbecomes.alike hr).symm⟩
  · rintro ⟨a, stands, u, hu, he, ho⟩
    have hr := ho.reference?_eq_none stands
    obtain ⟨b, u', hu', he', hbecomes⟩ := h.exists_after hc hu he hr
    exact ⟨b, stands, u', hu', he', ho.of_alike (hbecomes.alike hr)⟩

/-- What a reference encloses that is left was enclosed before. -/
theorem Becomes.encloses (h : Becomes decider false t t') (hc : CallsApart t)
    (he : Encloses t' v) : Encloses t v := by
  obtain ⟨a, stands, u, hu, he, hn⟩ := he
  rcases h.exists_enclosed_before hc hu he with ⟨b, hu, he⟩ | ⟨rfl, hle⟩
  · exact ⟨b, stands, u, hu, he, hn⟩
  · exact absurd hn.two_le (by omega)

/-- A module is named by a site, by what is overlooked outside of references, or inside one. -/
theorem contains_iff :
    Contains t v ↔ (∃ a r site, IsSite false t a r ∧ r.question? = some (site, v)) ∨
      Overlooks t v ∨ Encloses t v := by
  constructor
  · rintro ⟨a, stands, u, hu, hn⟩
    by_cases he : Enclosed false t a
    · exact .inr (.inr ⟨a, stands, u, hu, he, hn⟩)
    cases hn with
    | reference refers question =>
      exact .inl ⟨a, _, _, isSite_iff.mpr ⟨⟨stands, u, hu, refers⟩, he⟩, question⟩
    | overlooked ho => exact .inr (.inl ⟨a, stands, u, hu, he, ho⟩)
  · rintro (⟨a, r, site, ⟨⟨stands, u, hu, refers⟩, -⟩, question⟩ | ⟨a, stands, u, hu, -, ho⟩ |
      ⟨a, stands, u, hu, -, hn⟩)
    · exact ⟨a, stands, u, hu, .reference refers question⟩
    · exact ⟨a, stands, u, hu, .overlooked ho⟩
    · exact ⟨a, stands, u, hu, hn⟩

end

/-- A pass without an error leaves no site that names an excluded package, if the runtime's own
build is not excluded, nor is what is made of the ways to copies. Yet such a package is still named
if an import assignment or an optional call of `require` outside of references named it, or if a
reference that is left encloses its name, which it did before. -/
theorem excluded_left_iff {s : Situation} {t : Node} {l : Ledger} (hcalls : CallsApart t)
    (hown : s.classOf s.project.ownBuild ≠ .excluded)
    (hcopies : ∀ way, s.classOf (s.project.normalize (markRelative way)) ≠ .excluded)
    (hf : ((relocate s.action t).run l).1.findings.failure = none) {v : String}
    (hv : s.classOf v = .excluded) :
    let out := ((relocate s.action t).run l).1
    (∀ a r site, IsSite false out.tree a r → r.question? ≠ some (site, v)) ∧
      (Contains out.tree v ↔ Overlooks t v ∨ Encloses out.tree v) ∧
      (Encloses out.tree v → Encloses t v) := by
  intro out
  have hbecomes : Becomes s.action false t out.tree :=
    .visited nofun (leads_relocate s.action t l) hf
  have hsites (a r site) (hr : IsSite false out.tree a r) : r.question? ≠ some (site, v) := by
    intro hq
    obtain ⟨_, w, action, _, _, answer, hleft⟩ := hbecomes.exists_answer hcalls hr
    have hcomes := Situation.comes_of_run answer
    rcases hleft with ⟨rfl, hw⟩ | ⟨u, rfl, hu⟩
    · cases hw.symm.trans hq
      exact hcomes.not_excluded_of_keep hv
    · cases hu.symm.trans hq
      exact hcomes.not_excluded_of_replace hown hcopies hv
  refine ⟨hsites, ?_, hbecomes.encloses hcalls⟩
  rw [contains_iff, hbecomes.overlooks_iff hcalls, or_iff_right]
  rintro ⟨a, r, site, hr, hq⟩
  exact hsites a r site hr hq

/-- The tree of `import "@weex-module/dom";import modal = require("@weex-module/modal");` and
`require?.("@weex-module/stream");`, each on its own line. -/
def threeExcluded : Node :=
  .node (.file none) ⟨0, 106⟩
    [.node (.importFrom false .evaluation) ⟨0, 26⟩
      [.node (.text "@weex-module/dom" none) ⟨7, 25⟩ [], Node.many [], Node.absent],
    .node (.importEquals false false) ⟨27, 72⟩
      [.node (.identifier "modal" false) ⟨34, 39⟩ [], .node .externalReference ⟨42, 71⟩
        [.node (.text "@weex-module/modal" none) ⟨50, 70⟩ []]],
    .node .expressionStatement ⟨73, 106⟩
      [.node .optionalCall ⟨73, 105⟩
        [.node (.identifier "require" false) ⟨73, 80⟩ [], Node.many
          [.node (.argument false) ⟨83, 104⟩
            [.node (.text "@weex-module/stream" none) ⟨83, 104⟩ []]], Node.absent]]]

/-- Of the three, the import is taken away and the import assignment is left. -/
theorem excluded_left_in_threeExcluded :
    let out := ((relocate Situation.installed.action threeExcluded).run .empty).1
    (∀ a r site, IsSite false out.tree a r → r.question? ≠ some (site, "@weex-module/dom")) ∧
      Contains out.tree "@weex-module/modal" := by
  have hcalls : CallsApart threeExcluded := by
    simp [threeExcluded, callsApart_node, Node.many, Node.absent, Syntax.Dialect.role, Kind.role]
  have hcopies (way : String) : Situation.installed.classOf
      (Situation.installed.project.normalize (markRelative way)) ≠ .excluded := by
    have hpath : Situation.installed.classOf (markRelative way) = .path :=
      Specifier.classify_markRelative _ way
    exact fun h ↦ by cases hpath.symm.trans h
  have hf : ((relocate Situation.installed.action threeExcluded).run .empty).1.findings.failure =
      none := Option.isNone_iff_eq_none.mp (by decide +kernel)
  have hmodal : Overlooks threeExcluded "@weex-module/modal" :=
    ⟨[1], true, _, rfl, fun he ↦ not_enclosed_nil _ _ ((enclosed_cons_iff rfl rfl).mp he),
      .assignment rfl rfl rfl rfl rfl⟩
  have hleft {v : String} (hv : Situation.installed.classOf v = .excluded) :=
    excluded_left_iff hcalls (by decide +kernel) hcopies hf hv
  exact ⟨(hleft (by decide +kernel)).1, (hleft (by decide +kernel)).2.1.mpr (.inl hmodal)⟩

/-- Excluded packages are left that an import assignment and an optional call of `require` name,
where what is done to the ways to copies is nothing and the runtime is not excluded. -/
theorem excluded_left_not_in_threeExcluded :
    let s := Situation.installed
    let out := ((relocate s.action threeExcluded).run .empty).1
    (∀ way, s.project.normalize way = way) ∧ s.classOf s.project.ownBuild ≠ .excluded ∧
      out.findings.failure = none ∧
      s.classOf "@weex-module/modal" = .excluded ∧ Contains out.tree "@weex-module/modal" ∧
      s.classOf "@weex-module/stream" = .excluded ∧ Contains out.tree "@weex-module/stream" := by
  refine ⟨fun _ ↦ rfl, by decide +kernel, Option.isNone_iff_eq_none.mp (by decide +kernel),
    by decide +kernel, ?_, by decide +kernel, ?_⟩
  · exact ⟨[0], true, _, rfl, .overlooked (.assignment rfl rfl rfl rfl rfl)⟩
  · exact ⟨[1, 0], false, _, rfl,
      .overlooked (.optional (.inl rfl) rfl rfl rfl rfl rfl rfl rfl)⟩

end Pass

end Relocation
