import Relocation.Ledger.Program
import Relocation.Proofs.Pass.Edit

/-!
# The traversal of a tree

What a pass does between two points, as long as it meets no error: it decides the sites between
them one after the other, and the trees that it leaves are those after the edits that these
decisions call for. Whatever decides is a parameter.
-/

namespace Relocation.Pass

open Syntax (Dialect Span)
open Ledger (Program)

variable {κ : Type} [Dialect κ] {α β : Type} {decider : Decider}

/-- Decisions taken one after the other, each on the ledger that the ones before have left. What
is unknown is not decided by anyone. -/
inductive Decided (decider : Decider) : Ledger → List Decision → Ledger → Prop where
  | nil (l : Ledger) : Decided decider l [] l
  | asked {d : Decision} {ds : List Decision} {l m n : Ledger} {site : Site} {specifier : String}
      (question : d.reference.question? = some (site, specifier))
      (answer : (decider site specifier).run l = (.ok d.action, m))
      (rest : Decided decider m ds n) : Decided decider l (d :: ds) n
  | unknown {d : Decision} {ds : List Decision} {l n : Ledger}
      (question : d.reference.question? = none) (action : d.action = .replaceWithNull)
      (rest : Decided decider l ds n) : Decided decider l (d :: ds) n

/-- Decisions are taken on from the ledger that others have left. -/
theorem Decided.append {ds es : List Decision} {l m n : Ledger} (h : Decided decider l ds m)
    (g : Decided decider m es n) : Decided decider l (ds ++ es) n := by
  induction h with
  | nil l => exact g
  | asked question answer _ ih => exact .asked question answer (ih g)
  | unknown question action _ ih => exact .unknown question action (ih g)

/-- Decisions below a child are those on the child. -/
theorem Decided.map_below {ds : List Decision} {l m : Ledger} (i : Nat)
    (h : Decided decider l ds m) : Decided decider l (ds.map (·.below i)) m := by
  induction h with
  | nil l => exact .nil l
  | asked question answer _ ih => exact .asked question answer ih
  | unknown question action _ ih => exact .unknown question action ih

/-- A decision is the answer to a specifier that was put to the decider, or about a reference whose
specifier is unknown. -/
private theorem Decided.cases_of_mem {ds : List Decision} {l n : Ledger}
    (h : Decided decider l ds n) {d : Decision} (hd : d ∈ ds) :
    (∃ site specifier m m', d.reference.question? = some (site, specifier) ∧
      (decider site specifier).run m = (.ok d.action, m')) ∨
    (d.reference.question? = none ∧ d.action = .replaceWithNull) := by
  induction h with
  | nil l => cases hd
  | asked question answer _ ih =>
    rcases List.mem_cons.mp hd with rfl | hd
    · exact .inl ⟨_, _, _, _, question, answer⟩
    · exact ih hd
  | unknown question action _ ih =>
    rcases List.mem_cons.mp hd with rfl | hd
    · exact .inr ⟨question, action⟩
    · exact ih hd

/-- Each specifier of a decision was put to the decider. -/
theorem Decided.answer_of_mem {ds : List Decision} {l n : Ledger} (h : Decided decider l ds n)
    {d : Decision} (hd : d ∈ ds) {site : Site} {specifier : String}
    (hq : d.reference.question? = some (site, specifier)) :
    ∃ m m', (decider site specifier).run m = (.ok d.action, m') := by
  rcases h.cases_of_mem hd with ⟨_, _, m, m', question, answer⟩ | ⟨question, -⟩
  · cases question.symm.trans hq
    exact ⟨m, m', answer⟩
  · cases question.symm.trans hq

/-- A reference whose specifier is unknown becomes `null`. -/
theorem Decided.action_of_unknown {ds : List Decision} {l n : Ledger}
    (h : Decided decider l ds n) {d : Decision} (hd : d ∈ ds)
    (hq : d.reference.question? = none) : d.action = .replaceWithNull := by
  rcases h.cases_of_mem hd with ⟨_, _, m, m', question, -⟩ | ⟨-, action⟩
  · cases question.symm.trans hq
  · exact action

/-! ### Steps -/

/-- A step leads from findings and a ledger to a value, findings and a ledger. -/
def Leads (x : Step α) (found : Findings) (l : Ledger) (a : α) (found' : Findings)
    (l' : Ledger) : Prop :=
  (x.run found).run l = ((a, found'), l')

/-- A step without effects leads to its value alone. -/
theorem leads_pure {a b : α} {found found' : Findings} {l l' : Ledger} :
    Leads (pure a) found l b found' l' ↔ a = b ∧ found = found' ∧ l = l' := by
  simp [Leads, and_assoc]

/-- Steps lead through what the first one leads to. -/
theorem leads_bind {x : Step α} {f : α → Step β} {b : β} {found found' : Findings}
    {l l' : Ledger} :
    Leads (x >>= f) found l b found' l' ↔
      ∃ a found₁ l₁, Leads x found l a found₁ l₁ ∧ Leads (f a) found₁ l₁ b found' l' := by
  simp only [Leads, StateT.run_bind, Program.run_bind]
  constructor
  · intro h
    exact ⟨_, _, _, rfl, h⟩
  · rintro ⟨a, found₁, l₁, hx, hf⟩
    rw [hx]
    exact hf

/-- A step whose value is changed leads where it led. -/
theorem leads_map {x : Step α} {f : α → β} {b : β} {found found' : Findings} {l l' : Ledger} :
    Leads (f <$> x) found l b found' l' ↔ ∃ a, Leads x found l a found' l' ∧ f a = b := by
  rw [← bind_pure_comp, leads_bind]
  simp only [leads_pure]
  constructor
  · rintro ⟨a, _, _, hx, hb, rfl, rfl⟩
    exact ⟨a, hx, hb⟩
  · rintro ⟨a, hx, hb⟩
    exact ⟨a, _, _, hx, hb, rfl, rfl⟩

/-- A stretch of a pass without an error has decided these sites, one after the other. -/
structure Covers (decider : Decider) (sites : List (Address × Reference)) (ds : List Decision)
    (found found' : Findings) (l l' : Ledger) : Prop where
  begun : found.failure = none
  about : ds.map Decision.site = sites
  decided : Decided decider l ds l'
  unknown : found'.unknown = found.unknown ++ ds.filterMap (·.reference.unknown?)

namespace Covers

variable {found found₁ found' : Findings} {l l₁ l' : Ledger}

/-- A stretch without sites decides nothing. -/
protected theorem nil (h : found.failure = none) : Covers decider [] [] found found l l :=
  ⟨h, rfl, .nil l, by simp⟩

private theorem site_mem {sites : List (Address × Reference)} {ds : List Decision}
    (h : Covers decider sites ds found found' l l') {d : Decision} (hd : d ∈ ds) :
    d.site ∈ sites :=
  h.about ▸ List.mem_map_of_mem hd

/-- The decisions about a tree and about those that stand behind it. -/
theorem cons {inItems : Bool} {t : Syntax.Tree κ} {ts kept ts' : List (Syntax.Tree κ)} {i : Nat}
    {ds es : List Decision} (ht : Covers decider (sites inItems t) ds found found₁ l l₁)
    (hkept : edit (editsOf ds) t = kept)
    (hts : Covers decider (sitesAll inItems (i + 1) ts) es found₁ found' l₁ l')
    (hts' : editAll (editsOf es) (i + 1) ts = ts') :
    Covers decider (sitesAll inItems i (t :: ts)) (ds.map (·.below i) ++ es) found found' l l' ∧
      editAll (editsOf (ds.map (·.below i) ++ es)) i (t :: ts) = kept ++ ts' := by
  refine ⟨⟨ht.begun, ?_, (ht.decided.map_below i).append hts.decided, ?_⟩, ?_⟩
  · rw [sitesAll, ← ht.about, ← hts.about, List.map_append, List.map_map, List.map_map]
    rfl
  · rw [hts.unknown, ht.unknown, List.append_assoc, List.filterMap_append, List.filterMap_map]
    rfl
  · rw [editAll_append ds fun d hd ↦ hts.site_mem hd, hkept, hts']

end Covers

/-! ### One decision -/

section

variable {found found' : Findings} {l l' : Ledger} {action : Action}

/-- A step that does nothing after an error was met leaves no error only where none was met. -/
private theorem begun_of_leads {x : Step Action}
    (hx : ∀ found : Findings, found.failure.isSome → x.run found = pure (.keep, found))
    (h : Leads x found l action found' l') (hf : found'.failure = none) :
    found.failure = none := by
  cases hfail : found.failure with
  | none => rfl
  | some e =>
    have hr : ((action, found'), l') = ((.keep, found), l) := by
      rw [← h, hx found (by simp [hfail])]
      rfl
    simp only [Prod.mk.injEq] at hr
    rw [← hr.1.2, hf] at hfail
    exact hfail.symm

/-- As long as there is no error, the decider is asked. -/
theorem run_decideOn {site : Site} {specifier : String} {found : Findings}
    (h : found.failure = none) :
    (decideOn decider site specifier).run found = decider site specifier >>= fun
      | .ok action => pure (action, found)
      | .error e => pure (.keep, { found with failure := some e }) := by
  have hnone : ¬found.failure.isSome := by simp [h]
  exact if_neg hnone

/-- A decision without an error is what the decider says. -/
theorem leads_decideOn {site : Site} {specifier : String}
    (h : Leads (decideOn decider site specifier) found l action found' l')
    (hf : found'.failure = none) :
    found.failure = none ∧ found' = found ∧
      (decider site specifier).run l = (.ok action, l') := by
  have hb := begun_of_leads (fun found hfail ↦ by simp [decideOn, StateT.run, hfail]) h hf
  refine ⟨hb, ?_⟩
  rw [Leads, run_decideOn hb, Program.run_bind] at h
  generalize (decider site specifier).run l = answered at h ⊢
  obtain ⟨answer, m⟩ := answered
  cases answer with
  | ok a =>
    cases h
    exact ⟨rfl, rfl⟩
  | error e =>
    cases h
    cases hf

/-- A report without an error notes the call. -/
theorem leads_report {span : Span} (h : Leads (report span) found l action found' l')
    (hf : found'.failure = none) :
    found.failure = none ∧ found'.unknown = found.unknown ++ [span] ∧
      action = .replaceWithNull ∧ l' = l := by
  have hb := begun_of_leads (fun found hfail ↦ by simp [report, StateT.run, hfail]) h hf
  simp only [Leads, report, StateT.run, hb, Option.isSome_none, Bool.false_eq_true, if_false] at h
  cases h
  exact ⟨hb, rfl, rfl, rfl⟩

/-- What becomes of a call, as a decision about it. -/
theorem covers_requireAction {span : Span} {given : Requirement}
    (h : Leads (requireAction decider span given) found l action found' l')
    (hf : found'.failure = none) :
    Covers decider [([], .call span given)] [⟨[], .call span given, action⟩] found found' l l' := by
  cases given with
  | specifier value =>
    obtain ⟨hb, rfl, hr⟩ := leads_decideOn h hf
    exact ⟨hb, rfl, .asked rfl hr (.nil l'), by simp [Reference.unknown?]⟩
  | unknown =>
    obtain ⟨hb, hu, rfl, rfl⟩ := leads_report h hf
    exact ⟨hb, rfl, .unknown rfl rfl (.nil _), by simp [hu, Reference.unknown?]⟩

/-- What becomes of a declaration, as a decision about it. -/
theorem covers_decideOn {specifier : String}
    (h : Leads (decideOn decider .declaration specifier) found l action found' l')
    (hf : found'.failure = none) :
    Covers decider [([], .declaration specifier)] [⟨[], .declaration specifier, action⟩]
      found found' l l' := by
  obtain ⟨hb, rfl, hr⟩ := leads_decideOn h hf
  exact ⟨hb, rfl, .asked rfl hr (.nil l'), by simp [Reference.unknown?]⟩

end

/-! ### The edits of one decision -/

/-- A decision about a call edits the tree as the pass does. -/
theorem edit_call {kind : κ} {span : Span} {children : List (Syntax.Tree κ)} {e : Syntax.Tree κ}
    (h : requireArgument? children = some e) (given : Requirement) (action : Action) :
    edit (editsOf [⟨[], .call span given, action⟩]) (.node kind span children) =
      [applyToCall kind span children action] := by
  obtain ⟨callee, arguments, rest, argument, rfl, -, ho, -, hx⟩ := requireArgument?_eq_some.mp h
  cases action with
  | keep => exact edit_eq_self (fun _ ↦ rfl) _
  | remove => rfl
  | replaceWithNull => rfl
  | replace value =>
    -- the edit is addressed to the expression of the only argument
    have hat := editsOf_singleton (d := ⟨[], .call span given, .replace value⟩) rfl
    have hargument : edit (fun a ↦ editsOf [⟨[], .call span given, .replace value⟩] (1 :: 0 :: a))
        argument = [.node argument.kind argument.span [Syntax.Tree.literal value e.span]] := by
      rw [edit_of_root (by simp [hat]), hx]
      obtain ⟨k, s, cs⟩ := e
      simp [editAll, edit, hat]
    have harguments : edit (fun a ↦ editsOf [⟨[], .call span given, .replace value⟩] (1 :: a))
        arguments = [.node arguments.kind arguments.span
          [.node argument.kind argument.span [Syntax.Tree.literal value e.span]]] := by
      rw [edit_of_root (by simp [hat]), ho, editAll, hargument]
      rfl
    rw [edit_of_root (by simp [hat]), Syntax.Tree.children_node, editAll,
      edit_eq_self (by simp [hat]), editAll, harguments,
      editAll_eq_self (fun j a hj ↦ by simp [hat]; omega)]
    simp [applyToCall, withArgument, ho, hx]

/-- A decision about a declaration edits the tree as the pass does. -/
theorem edit_declaration {t : Syntax.Tree κ} {source : String} (h : source? t = some source)
    (action : Action) :
    edit (editsOf [⟨[], .declaration source, action⟩]) t = applyToDeclaration t action := by
  obtain ⟨-, s, rest, hc, -⟩ := source?_eq_some.mp h
  obtain ⟨kind, span, children⟩ := t
  obtain rfl : children = s :: rest := hc
  cases action with
  | keep => exact edit_eq_self (fun _ ↦ rfl) _
  | remove => rfl
  | replaceWithNull => rfl
  | replace value =>
    have hat := editsOf_singleton (d := ⟨[], .declaration source, .replace value⟩) rfl
    obtain ⟨k, u, cs⟩ := s
    rw [edit_of_root (by simp [hat]), Syntax.Tree.children_node, editAll,
      editAll_eq_self (fun j a hj ↦ by simp [hat]; omega)]
    simp [edit, hat, applyToDeclaration, withSource]

/-! ### The whole traversal -/

/-- Away from lists of module items, the visit of a tree that is no reference goes on with its
children. -/
theorem visit_of_reference?_eq_none {kind : κ} {span : Span} {children : List (Syntax.Tree κ)}
    (h : reference? false (.node kind span children) = none) (hi : Dialect.role kind ≠ .items) :
    visit decider (.node kind span children) =
      (visitAll decider children >>= fun us ↦ pure (.node kind span us)) := by
  cases hr : Dialect.role kind with
  | items => exact absurd hr hi
  | call =>
    have hc : requireArgument? children = none := by
      simpa [reference?, Syntax.Tree.role, hr] using h
    simp only [visit, hr, hc]
  | _ => simp only [visit, hr]

mutual

/-- A visit without an error covers the sites of the tree. -/
theorem covers_visit {t t' : Syntax.Tree κ} {found found' : Findings} {l l' : Ledger}
    (h : Leads (visit decider t) found l t' found' l') (hf : found'.failure = none) :
    ∃ ds, Covers decider (sites false t) ds found found' l l' ∧ edit (editsOf ds) t = [t'] := by
  cases t with
  | node kind span children =>
    cases hr : reference? false (.node kind span children) with
    | some r =>
      obtain ⟨e, he : requireArgument? children = some e, hkind : Dialect.role kind = .call, rfl⟩ :=
        reference?_false_eq_some.mp hr
      simp only [visit, hkind, he, leads_bind, leads_pure] at h
      obtain ⟨action, _, _, ha, rfl, rfl, rfl⟩ := h
      rw [sites_of_reference? hr]
      exact ⟨_, covers_requireAction ha hf, edit_call he _ action⟩
    | none =>
      -- whether or not the children are module items, the node is built again around them
      suffices hchildren : ∃ us, Syntax.Tree.node kind span us = t' ∧ ∃ ds,
          Covers decider (sitesAll (Dialect.role kind = .items) 0 children) ds found found' l l' ∧
            editAll (editsOf ds) 0 children = us by
        obtain ⟨us, rfl, ds, hds, rfl⟩ := hchildren
        rw [sites_of_reference?_eq_none hr]
        exact ⟨ds, hds, edit_of_root (editsOf_root fun d hd ↦ hds.site_mem hd) _⟩
      by_cases hi : Dialect.role kind = .items
      · simp only [visit, hi, leads_bind, leads_pure] at h
        obtain ⟨us, _, _, hus, rfl, rfl, rfl⟩ := h
        rw [decide_eq_true hi]
        exact ⟨us, rfl, covers_visitItems hus hf⟩
      · rw [visit_of_reference?_eq_none hr hi, leads_bind] at h
        obtain ⟨us, _, _, hus, h⟩ := h
        obtain ⟨rfl, rfl, rfl⟩ := leads_pure.mp h
        rw [decide_eq_false hi]
        exact ⟨us, rfl, covers_visitAll hus hf⟩

/-- So does a visit of trees that stand beside each other. -/
theorem covers_visitAll {ts ts' : List (Syntax.Tree κ)} {i : Nat} {found found' : Findings}
    {l l' : Ledger} (h : Leads (visitAll decider ts) found l ts' found' l')
    (hf : found'.failure = none) :
    ∃ ds, Covers decider (sitesAll false i ts) ds found found' l l' ∧
      editAll (editsOf ds) i ts = ts' := by
  cases ts with
  | nil =>
    obtain ⟨rfl, rfl, rfl⟩ := leads_pure.mp h
    exact ⟨[], .nil hf, rfl⟩
  | cons t ts =>
    simp only [visitAll, leads_bind, leads_pure] at h
    obtain ⟨u, found₁, l₁, ht, us, _, _, hts, rfl, rfl, rfl⟩ := h
    obtain ⟨es, hes, hedit⟩ := covers_visitAll (i := i + 1) hts hf
    obtain ⟨ds, hds, hkept⟩ := covers_visit ht hes.begun
    exact ⟨_, hds.cons hkept hes hedit⟩

/-- And a visit of module items. -/
theorem covers_visitItems {ts ts' : List (Syntax.Tree κ)} {i : Nat} {found found' : Findings}
    {l l' : Ledger} (h : Leads (visitItems decider ts) found l ts' found' l')
    (hf : found'.failure = none) :
    ∃ ds, Covers decider (sitesAll true i ts) ds found found' l l' ∧
      editAll (editsOf ds) i ts = ts' := by
  cases ts with
  | nil =>
    obtain ⟨rfl, rfl, rfl⟩ := leads_pure.mp h
    exact ⟨[], .nil hf, rfl⟩
  | cons t ts =>
    cases hs : source? t with
    | some source =>
      simp only [visitItems, hs, leads_bind, leads_map, leads_pure] at h
      obtain ⟨_, found₁, l₁, ⟨action, ht, rfl⟩, us, _, _, hts, rfl, rfl, rfl⟩ := h
      obtain ⟨es, hes, hedit⟩ := covers_visitItems (i := i + 1) hts hf
      have hds := covers_decideOn ht hes.begun
      rw [← sites_of_reference? (reference?_of_source?_eq_some hs)] at hds
      exact ⟨_, hds.cons (edit_declaration hs action) hes hedit⟩
    | none =>
      simp only [visitItems, hs, leads_bind, leads_map, leads_pure] at h
      obtain ⟨_, found₁, l₁, ⟨u, ht, rfl⟩, us, _, _, hts, rfl, rfl, rfl⟩ := h
      obtain ⟨es, hes, hedit⟩ := covers_visitItems (i := i + 1) hts hf
      obtain ⟨ds, hds, hkept⟩ := covers_visit ht hes.begun
      rw [← sites_of_source?_eq_none hs true] at hds
      exact ⟨_, hds.cons hkept hes hedit⟩

end

end Relocation.Pass
