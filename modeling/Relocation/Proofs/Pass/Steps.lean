import Relocation.Proofs.Pass.Traversal

/-!
# What holds of every step of a pass

A visit is put together from decisions and reports. A property of steps that these have, and that
goes over from steps to what is put together from them, is a property of every visit.
-/

namespace Relocation.Pass

open Syntax (Dialect Span)

variable {κ : Type} [Dialect κ]

/-- A pass is the visit of its tree, without findings to begin with. -/
theorem leads_relocate (decider : Decider) (t : Syntax.Tree κ) (l : Ledger) :
    Leads (visit decider t) {} l ((relocate decider t).run l).1.tree
      ((relocate decider t).run l).1.findings ((relocate decider t).run l).2 := by
  rw [relocate, Ledger.Program.run_bind]
  rfl

/-- What is asked at sites is of a kind. -/
def Asks (Asked : Site → String → Prop) (sites : List (Address × Reference)) : Prop :=
  ∀ r ∈ sites, ∀ site specifier, r.2.question? = some (site, specifier) → Asked site specifier

/-- If what is asked of several trees is of a kind, so is what is asked of the first and of the
others. -/
theorem asks_sitesAll_cons {Asked : Site → String → Prop} {inItems : Bool} {i : Nat}
    {t : Syntax.Tree κ} {ts : List (Syntax.Tree κ)}
    (h : Asks Asked (sitesAll inItems i (t :: ts))) :
    Asks Asked (sites inItems t) ∧ Asks Asked (sitesAll inItems (i + 1) ts) := by
  rw [sitesAll] at h
  constructor
  · intro r hr
    exact h (i :: r.1, r.2) (List.mem_append_left _ (List.mem_map_of_mem hr))
  · intro r hr
    exact h r (List.mem_append_right _ hr)

/-- A property of steps goes over to what is put together from them. -/
structure Composes (R : ∀ {α : Type}, Step α → Prop) : Prop where
  pure : ∀ {α : Type} (a : α), R (pure a)
  bind : ∀ {α β : Type} {x : Step α} {f : α → Step β}, R x → (∀ a, R (f a)) → R (x >>= f)

/-- A property of the decisions about what is asked, and of reports. -/
structure Decides (R : ∀ {α : Type}, Step α → Prop) (decider : Decider)
    (Asked : Site → String → Prop) : Prop where
  decide : ∀ site specifier, Asked site specifier → R (decideOn decider site specifier)
  report : ∀ span, R (report span)

namespace Composes

variable {R : ∀ {α : Type}, Step α → Prop} {decider : Decider} {Asked : Site → String → Prop}

private theorem map (hR : Composes R) {α β : Type} {x : Step α} (hx : R x) (f : α → β) :
    R (f <$> x) := by
  rw [← bind_pure_comp]
  exact hR.bind hx fun a ↦ hR.pure (f a)

private theorem requireAction (hd : Decides R decider Asked) {span : Span} {given : Requirement}
    (ha : Asks Asked [([], .call span given)]) : R (requireAction decider span given) := by
  cases given with
  | specifier value =>
    exact hd.decide .require value (ha _ (List.mem_singleton_self _) .require value rfl)
  | unknown => exact hd.report span

mutual

/-- A visit has the property if it asks only such questions. -/
theorem visit (hR : Composes R) (hd : Decides R decider Asked) {t : Syntax.Tree κ}
    (ha : Asks Asked (sites false t)) : R (visit decider t) := by
  cases t with
  | node kind span children =>
    cases hr : reference? false (.node kind span children) with
    | some r =>
      obtain ⟨e, he : requireArgument? children = some e, hk : Dialect.role kind = .call, rfl⟩ :=
        reference?_false_eq_some.mp hr
      rw [sites_of_reference? hr] at ha
      simp only [Pass.visit, hk, he]
      exact hR.bind (requireAction hd ha) fun _ ↦ hR.pure _
    | none =>
      rw [sites_of_reference?_eq_none hr, Syntax.Tree.role, Syntax.Tree.kind_node,
        Syntax.Tree.children_node] at ha
      by_cases hi : Dialect.role kind = .items
      · rw [decide_eq_true hi] at ha
        simp only [Pass.visit, hi]
        exact hR.bind (visitItems hR hd ha) fun _ ↦ hR.pure _
      · rw [decide_eq_false hi] at ha
        rw [visit_of_reference?_eq_none hr hi]
        exact hR.bind (visitAll hR hd ha) fun _ ↦ hR.pure _

/-- So has a visit of trees that stand beside each other. -/
theorem visitAll (hR : Composes R) (hd : Decides R decider Asked) {ts : List (Syntax.Tree κ)}
    {i : Nat} (ha : Asks Asked (sitesAll false i ts)) : R (visitAll decider ts) := by
  cases ts with
  | nil => exact hR.pure []
  | cons t ts =>
    obtain ⟨hat, hats⟩ := asks_sitesAll_cons ha
    exact hR.bind (visit hR hd hat) fun _ ↦ hR.bind (visitAll hR hd hats) fun _ ↦ hR.pure _

/-- And a visit of module items. -/
theorem visitItems (hR : Composes R) (hd : Decides R decider Asked) {ts : List (Syntax.Tree κ)}
    {i : Nat} (ha : Asks Asked (sitesAll true i ts)) : R (visitItems decider ts) := by
  cases ts with
  | nil => exact hR.pure []
  | cons t ts =>
    obtain ⟨hat, hats⟩ := asks_sitesAll_cons ha
    have hrest {kept : List (Syntax.Tree κ)} :
        R (Pass.visitItems decider ts >>= fun us ↦ Pure.pure (kept ++ us)) :=
      hR.bind (visitItems hR hd hats) fun _ ↦ hR.pure _
    cases hs : source? t with
    | some source =>
      rw [sites_of_reference? (reference?_of_source?_eq_some hs)] at hat
      simp only [Pass.visitItems, hs]
      refine hR.bind (hR.map (hd.decide .declaration source ?_) _) fun _ ↦ hrest
      exact hat _ (List.mem_singleton_self _) .declaration source rfl
    | none =>
      rw [sites_of_source?_eq_none hs] at hat
      simp only [Pass.visitItems, hs]
      exact hR.bind (hR.map (visit hR hd hat) _) fun _ ↦ hrest

end

end Composes

end Relocation.Pass
