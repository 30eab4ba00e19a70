import Relocation.Proofs.Ledger.Invariant
import Relocation.Proofs.Pass.Traversal

/-!
# Passes over what a pass has left

A pass without an error leaves a tree that a second one leaves as it is, if every specifier that it
has kept or written is kept or written again in the same way, on any ledger that holds what has
been noted since. Whatever decides is a parameter.
-/

namespace Relocation

namespace Ledger

/-- What is written in one ledger is written in the other. -/
def Within (l m : Ledger) : Prop := ∀ v, l.contains v → m.contains v

/-- What is written in a ledger is written in it. -/
theorem Within.refl (l : Ledger) : l.Within l := fun _ h ↦ h

private theorem Within.trans {l m n : Ledger} (h : l.Within m) (g : m.Within n) : l.Within n :=
  fun v hv ↦ g v (h v hv)

/-- What is written stays written, whatever is computed. -/
theorem Program.keeps_within {α : Type} (l : Ledger) (p : Program α) : p.Keeps (Within l) := by
  induction p with
  | done a => trivial
  | target s next ih | contains s next ih => exact ih
  | remember s file next ih =>
    exact ⟨fun m hm v hv ↦ by rw [contains_remember, hm v hv], ih⟩
  | mark s next ih =>
    exact ⟨fun m hm v hv ↦ by rw [contains_mark, hm v hv, Bool.or_true], ih⟩

end Ledger

namespace Pass

open Syntax (Dialect LawfulDialect Span)
open Ledger (Program)

variable {κ : Type} [Dialect κ] {α β : Type} {decider : Decider} {m : Ledger}

/-! ### Steps at rest -/

/-- What is written stays written in each step. -/
theorem within_of_leads {x : Step α} {a : α} {found found' : Findings} {l l' : Ledger}
    (h : Leads x found l a found' l') : l.Within l' := by
  have hrun := (Program.keeps_within l (x.run found)).run (.refl l)
  rwa [h] at hrun

/-- A step comes to a value on this ledger, as long as there was no error, and changes nothing. -/
def Rests (m : Ledger) (x : Step α) (a : α) : Prop :=
  ∀ found, found.failure = none → Leads x found m a found m

namespace Rests

variable {x : Step α} {a : α}

/-- A step without effects rests at its value. -/
protected theorem pure (m : Ledger) (a : α) : Rests m (pure a) a := fun _ _ ↦
  leads_pure.mpr ⟨rfl, rfl, rfl⟩

/-- Steps that rest one after the other rest. -/
protected theorem bind {f : α → Step β} {b : β} (hx : Rests m x a) (hf : Rests m (f a) b) :
    Rests m (x >>= f) b := fun found hb ↦
  leads_bind.mpr ⟨a, found, m, hx found hb, hf found hb⟩

/-- A step that rests still does if its value is changed. -/
protected theorem map (f : α → β) (hx : Rests m x a) : Rests m (f <$> x) (f a) := fun found hb ↦
  leads_map.mpr ⟨a, hx found hb, rfl⟩

end Rests

private theorem rests_decideOn {site : Site} {specifier : String} {action : Action}
    (h : (decider site specifier).run m = (.ok action, m)) :
    Rests m (decideOn decider site specifier) action := by
  intro found hb
  rw [Leads, run_decideOn hb, Program.run_bind, h]
  rfl

/-- What an action leaves of a specifier is left as it is. -/
def Settled (decider : Decider) (m : Ledger) (site : Site) (specifier : String) : Action → Prop
  | .keep => (decider site specifier).run m = (.ok .keep, m)
  | .replace v =>
    (decider site v).run m = (.ok .keep, m) ∨ (decider site v).run m = (.ok (.replace v), m)
  | .remove | .replaceWithNull => True

/-! ### What a visit makes of a tree -/

/-- What a visit makes of a tree: a call after an action, or the tree around other children. -/
inductive Visited (decider : Decider) (found : Findings) (l : Ledger) :
    Syntax.Tree κ → Syntax.Tree κ → Findings → Ledger → Prop where
  | call {kind : κ} {span : Span} {children : List (Syntax.Tree κ)} {e : Syntax.Tree κ}
      {action : Action} {found' : Findings} {l' : Ledger} (role : Dialect.role kind = .call)
      (argument : requireArgument? children = some e)
      (leads : Leads (requireAction decider span (requirement e)) found l action found' l') :
      Visited decider found l (.node kind span children) (applyToCall kind span children action)
        found' l'
  | items {kind : κ} {span : Span} {children us : List (Syntax.Tree κ)} {found' : Findings}
      {l' : Ledger} (role : Dialect.role kind = .items)
      (leads : Leads (visitItems decider children) found l us found' l') :
      Visited decider found l (.node kind span children) (.node kind span us) found' l'
  | node {kind : κ} {span : Span} {children us : List (Syntax.Tree κ)} {found' : Findings}
      {l' : Ledger} (role : Dialect.role kind ≠ .items)
      (reference : reference? false (.node kind span children) = none)
      (leads : Leads (visitAll decider children) found l us found' l') :
      Visited decider found l (.node kind span children) (.node kind span us) found' l'

section

variable {t t' : Syntax.Tree κ} {ts us : List (Syntax.Tree κ)} {found found' : Findings}
  {l l' : Ledger}

/-- What a visit leads to is the call after an action, or the tree around other children. -/
theorem visited_of_leads (h : Leads (visit decider t) found l t' found' l') :
    Visited decider found l t t' found' l' := by
  obtain ⟨kind, span, children⟩ := t
  cases hr : reference? false (.node kind span children) with
  | some r =>
    obtain ⟨e, he : requireArgument? children = some e, hk : Dialect.role kind = .call, -⟩ :=
      reference?_false_eq_some.mp hr
    simp only [visit, hk, he, leads_bind, leads_pure] at h
    obtain ⟨action, _, _, ha, rfl, rfl, rfl⟩ := h
    exact .call hk he ha
  | none =>
    by_cases hi : Dialect.role kind = .items
    · simp only [visit, hi, leads_bind, leads_pure] at h
      obtain ⟨us, _, _, hus, rfl, rfl, rfl⟩ := h
      exact .items hi hus
    · rw [visit_of_reference?_eq_none hr hi] at h
      simp only [leads_bind, leads_pure] at h
      obtain ⟨us, _, _, hus, rfl, rfl, rfl⟩ := h
      exact .node hi hr hus

private theorem eq_nil_of_leads_visitAll (h : Leads (visitAll decider ts) found l [] found' l') :
    ts = [] := by
  cases ts with
  | nil => rfl
  | cons t ts =>
    simp only [visitAll, leads_bind, leads_pure] at h
    obtain ⟨_, _, _, _, _, _, _, _, hnil, -⟩ := h
    cases hnil

private theorem exists_cons_of_leads_visitAll {u : Syntax.Tree κ}
    (h : Leads (visitAll decider ts) found l (u :: us) found' l') :
    ∃ t rest found₁ l₁, ts = t :: rest ∧ Leads (visit decider t) found l u found₁ l₁ ∧
      Leads (visitAll decider rest) found₁ l₁ us found' l' := by
  cases ts with
  | nil =>
    simp only [visitAll, leads_pure] at h
    cases h.1
  | cons t ts =>
    simp only [visitAll, leads_bind, leads_pure] at h
    obtain ⟨_, found₁, l₁, ht, _, _, _, hts, heq, rfl, rfl⟩ := h
    cases heq
    exact ⟨t, ts, found₁, l₁, rfl, ht, hts⟩

/-- A tree with one child that is no list of module items had one before it was visited. -/
theorem exists_child_of_leads {u : Syntax.Tree κ} (h : Leads (visit decider t) found l t' found' l')
    (hi : t.role ≠ .items) (hu : t'.children = [u]) :
    ∃ c found₁ l₁, t.children = [c] ∧ Leads (visit decider c) found l u found₁ l₁ := by
  cases visited_of_leads h with
  | @call _ _ _ _ action _ _ role argument leads =>
    -- a call has a callee and arguments, and what takes its place has no children
    obtain ⟨callee, arguments, rest, _, rfl, -⟩ := requireArgument?_eq_some.mp argument
    cases action <;> cases hu
  | items role => exact absurd role hi
  | node _ _ leads =>
    obtain rfl := hu
    obtain ⟨c, rest, found₁, l₁, rfl, hc, hrest⟩ := exists_cons_of_leads_visitAll leads
    obtain rfl := eq_nil_of_leads_visitAll hrest
    exact ⟨c, found₁, l₁, rfl, hc⟩

variable [LawfulDialect κ]

/-- A visit leaves a tree what it is, or makes it `null`. -/
theorem role_of_leads (h : Leads (visit decider t) found l t' found' l') :
    t'.role = t.role ∨ t'.role = .plain := by
  cases visited_of_leads h with
  | @call _ _ _ _ action =>
    cases action with
    | keep => exact .inl rfl
    | replace v => exact .inl rfl
    | remove => exact .inr LawfulDialect.role_null
    | replaceWithNull => exact .inr LawfulDialect.role_null
  | items => exact .inl rfl
  | node => exact .inl rfl

private theorem role_eq_of_leads (h : Leads (visit decider t) found l t' found' l')
    (hp : t'.role ≠ .plain) : t.role = t'.role :=
  ((role_of_leads h).resolve_right hp).symm

/-- The children of a call that names no module name none after they were visited. -/
theorem requireArgument?_of_leads (h : Leads (visitAll decider ts) found l us found' l')
    (hi : ∀ c ∈ ts, c.role ≠ .items) (hn : requireArgument? ts = none) :
    requireArgument? us = none := by
  refine Option.eq_none_iff_forall_ne_some.mpr fun e he ↦ ?_
  obtain ⟨callee', arguments', rest', argument', rfl, hname, honly, hunspread, hexpression⟩ :=
    requireArgument?_eq_some.mp he
  obtain ⟨callee, ts, _, _, rfl, hcallee, hts⟩ := exists_cons_of_leads_visitAll h
  obtain ⟨arguments, rest, _, _, rfl, harguments, -⟩ := exists_cons_of_leads_visitAll hts
  obtain ⟨argument, _, _, honly', hargument⟩ :=
    exists_child_of_leads harguments (hi arguments (by simp)) honly
  have hrole : argument.role = .argument false := by
    rw [role_eq_of_leads hargument (by simp [hunspread]), hunspread]
  obtain ⟨expression, _, _, hexpression', -⟩ :=
    exists_child_of_leads hargument (by simp [hrole]) hexpression
  have hname' : callee.role = .name "require" := by
    rw [role_eq_of_leads hcallee (by simp [hname]), hname]
  have hsome := requireArgument?_eq_some.mpr
    ⟨callee, arguments, rest, argument, rfl, hname', honly', hrole, hexpression'⟩
  cases hn.symm.trans hsome

/-- What is no reference is none after its children were visited. -/
theorem reference?_of_leads {kind : κ} {span : Span}
    (hr : reference? false (.node kind span ts) = none)
    (hi : Dialect.role kind = .call → ∀ c ∈ ts, c.role ≠ .items)
    (h : Leads (visitAll decider ts) found l us found' l') :
    reference? false (.node kind span us) = none := by
  simp only [reference?, Syntax.Tree.role, Syntax.Tree.kind_node, Syntax.Tree.children_node] at hr ⊢
  split at hr
  · next hk =>
    rw [requireArgument?_of_leads h (hi hk) (Option.map_eq_none_iff.mp hr)]
    rfl
  · rfl
  · rfl

/-- What has no source has none after it was visited. -/
theorem source?_of_leads (h : Leads (visit decider t) found l t' found' l')
    (hn : source? t = none) : source? t' = none := by
  refine Option.eq_none_iff_forall_ne_some.mpr fun v hv ↦ ?_
  obtain ⟨hsourced, s', rest', hchildren, htext⟩ := source?_eq_some.mp hv
  have hrole := role_eq_of_leads h (by simp [hsourced])
  rw [hsourced] at hrole
  cases visited_of_leads h with
  | call role => cases role.symm.trans hrole
  | items role => cases role.symm.trans hrole
  | node _ _ leads =>
    obtain rfl := hchildren
    obtain ⟨s, rest, _, _, rfl, hs, -⟩ := exists_cons_of_leads_visitAll leads
    have htext' : s.role = .text v := by
      rw [role_eq_of_leads hs (by simp [htext]), htext]
    cases hn.symm.trans (source?_eq_some.mpr ⟨hrole, s, rest, rfl, htext'⟩)

end

/-! ### One decision again -/

section

variable {kind : κ} {span : Span} {children : List (Syntax.Tree κ)} {e : Syntax.Tree κ}

/-- The written argument is the argument of the call, which is not changed by writing it again. -/
theorem requireArgument?_withArgument (h : requireArgument? children = some e) (v : String) :
    requireArgument? (withArgument v children) = some (Syntax.Tree.literal v e.span) ∧
      withArgument v (withArgument v children) = withArgument v children := by
  obtain ⟨callee, arguments, rest, argument, rfl, hname, honly, hunspread, hexpression⟩ :=
    requireArgument?_eq_some.mp h
  have hwritten : withArgument v (callee :: arguments :: rest) = callee ::
      .node arguments.kind arguments.span [.node argument.kind argument.span
        [Syntax.Tree.literal v e.span]] :: rest := by
    simp [withArgument, honly, hexpression]
  rw [hwritten]
  refine ⟨requireArgument?_eq_some.mpr ⟨callee, _, rest, _, rfl, hname, rfl, hunspread, rfl⟩, ?_⟩
  rfl

/-- A call is left as it is if its specifier is kept or written again. -/
theorem rests_call (hk : Dialect.role kind = .call) (he : requireArgument? children = some e)
    {v : String} (hv : requirement e = .specifier v) {action : Action}
    (hrun : (decider .require v).run m = (.ok action, m))
    (hsame : applyToCall kind span children action = .node kind span children) :
    Rests m (visit decider (.node kind span children)) (.node kind span children) := by
  have hpure := Rests.pure m (applyToCall kind span children action)
  simp only [visit, hk, he, hv, requireAction]
  rw [hsame] at hpure
  exact (rests_decideOn hrun).bind (hsame ▸ hpure)

/-- A declaration is left as it is if its source is kept or written again. -/
theorem rests_declaration {t : Syntax.Tree κ} {us : List (Syntax.Tree κ)} {v : String}
    (hv : source? t = some v) {action : Action}
    (hrun : (decider .declaration v).run m = (.ok action, m))
    (hsame : applyToDeclaration t action = [t]) (hus : Rests m (visitItems decider us) us) :
    Rests m (visitItems decider (t :: us)) (t :: us) := by
  have hhead := (rests_decideOn hrun).map (applyToDeclaration t)
  simp only [visitItems, hv]
  rw [hsame] at hhead
  exact hhead.bind (hus.bind (.pure m (t :: us)))

variable [LawfulDialect κ]

/-- The literal of a specifier requires that specifier. -/
theorem requirement_literal (v : String) (span : Span) :
    requirement (Syntax.Tree.literal v span : Syntax.Tree κ) = .specifier v := by
  simp [requirement, Syntax.Tree.literal, LawfulDialect.role_literal]

private theorem rests_null (decider : Decider) (m : Ledger) (span : Span) :
    Rests m (visit decider (Syntax.Tree.null span : Syntax.Tree κ)) (Syntax.Tree.null span) := by
  have hr : reference? false (Syntax.Tree.null span : Syntax.Tree κ) = none := by
    simp [reference?, Syntax.Tree.role, Syntax.Tree.null, LawfulDialect.role_null]
  rw [Syntax.Tree.null, visit_of_reference?_eq_none hr (by simp [LawfulDialect.role_null])]
  exact (Rests.pure m []).bind (.pure m _)

/-- What a settled action makes of a call is left as it is. -/
theorem rests_applyToCall (hk : Dialect.role kind = .call) (he : requireArgument? children = some e)
    {v : String} (hv : requirement e = .specifier v) {action : Action}
    (h : Settled decider m .require v action) :
    Rests m (visit decider (applyToCall kind span children action))
      (applyToCall kind span children action) := by
  cases action with
  | keep => exact rests_call hk he hv h rfl
  | replace w =>
    obtain ⟨hargument, hagain⟩ := requireArgument?_withArgument he w
    rcases h with h | h
    · exact rests_call hk hargument (requirement_literal w e.span) h rfl
    · refine rests_call hk hargument (requirement_literal w e.span) h ?_
      rw [applyToCall, hagain]
  | remove => exact rests_null decider m span
  | replaceWithNull => exact rests_null decider m span

/-- After a declaration's source was replaced, it is the new one, and replacing it again changes
nothing. -/
theorem source?_withSource {t : Syntax.Tree κ} {source : String} (h : source? t = some source)
    (v : String) :
    source? (withSource v t) = some v ∧ withSource v (withSource v t) = withSource v t := by
  obtain ⟨hrole, s, rest, hchildren, -⟩ := source?_eq_some.mp h
  obtain ⟨kind, span, children⟩ := t
  obtain rfl : children = s :: rest := hchildren
  refine ⟨source?_eq_some.mpr ⟨hrole, Syntax.Tree.literal v s.span, rest, rfl, ?_⟩, rfl⟩
  exact LawfulDialect.role_literal v

/-- What a settled action makes of a declaration is left as it is. -/
theorem rests_applyToDeclaration {t : Syntax.Tree κ} {us : List (Syntax.Tree κ)} {v : String}
    (hv : source? t = some v) {action : Action} (h : Settled decider m .declaration v action)
    (hus : Rests m (visitItems decider us) us) :
    Rests m (visitItems decider (applyToDeclaration t action ++ us))
      (applyToDeclaration t action ++ us) := by
  cases action with
  | keep => exact rests_declaration hv h rfl hus
  | replace w =>
    obtain ⟨hsource, hagain⟩ := source?_withSource hv w
    rcases h with h | h
    · exact rests_declaration hsource h rfl hus
    · refine rests_declaration hsource h ?_ hus
      rw [applyToDeclaration, hagain]
  | remove => exact hus
  | replaceWithNull => exact hus

end

/-! ### The whole traversal again -/

/-- No child of a call is a list of module items. -/
inductive CallsApart : Syntax.Tree κ → Prop where
  | node {kind : κ} {span : Span} {children : List (Syntax.Tree κ)}
      (apart : Dialect.role kind = .call → ∀ c ∈ children, c.role ≠ .items)
      (below : ∀ c ∈ children, CallsApart c) : CallsApart (.node kind span children)

/-- Calls are apart in a tree if they are at its root and in its children. -/
theorem callsApart_node {kind : κ} {span : Span} {children : List (Syntax.Tree κ)} :
    CallsApart (.node kind span children) ↔
      (Dialect.role kind = .call → ∀ c ∈ children, c.role ≠ .items) ∧
        ∀ c ∈ children, CallsApart c :=
  ⟨fun ⟨apart, below⟩ ↦ ⟨apart, below⟩, fun ⟨apart, below⟩ ↦ ⟨apart, below⟩⟩

/-- Calls that are apart in a tree are so in its children. -/
theorem CallsApart.of_getElem? {t c : Syntax.Tree κ} (hc : CallsApart t) {i : Nat}
    (h : t.children[i]? = some c) : CallsApart c := by
  obtain ⟨-, below⟩ := hc
  exact below c (List.mem_of_getElem? h)

/-- Calls that are apart in a tree are so in all that it holds. -/
theorem CallsApart.of_subtree? {inItems stands : Bool} {t u : Syntax.Tree κ} {a : Address}
    (hc : CallsApart t) (hu : subtree? inItems t a = some (stands, u)) :
    CallsApart u := by
  induction a generalizing inItems t with
  | nil =>
    cases hu
    exact hc
  | cons i a ih =>
    obtain ⟨c, hi, hu⟩ := Option.bind_eq_some_iff.mp hu
    exact ih (hc.of_getElem? hi) hu

/-- What is decided about what is asked is settled on the ledger `m`. -/
def Settles (decider : Decider) (m : Ledger) (Asked : Site → String → Prop) : Prop :=
  ∀ site specifier l action l', Asked site specifier →
    (decider site specifier).run l = (.ok action, l') → l'.Within m →
      Settled decider m site specifier action

section

variable {Asked : Site → String → Prop}

mutual

/-- What a visit without an error leaves of a tree is left as it is by another one. -/
theorem rests_visit [LawfulDialect κ] (hd : Settles decider m Asked) {t t' : Syntax.Tree κ}
    {found found' : Findings} {l l' : Ledger} (h : Leads (visit decider t) found l t' found' l')
    (hf : found'.failure = none) (hc : CallsApart t) (ha : Asks Asked (sites false t))
    (hm : l'.Within m) : Rests m (visit decider t') t' := by
  cases t with
  | node kind span children =>
    obtain ⟨apart, below⟩ := hc
    cases visited_of_leads h with
    | @call _ _ _ e _ _ _ role argument leads =>
      have hr : reference? false (.node kind span children) =
          some (.call span (requirement e)) :=
        reference?_false_eq_some.mpr ⟨e, argument, role, rfl⟩
      rw [sites_of_reference? hr] at ha
      cases hv : requirement e with
      | unknown =>
        rw [hv] at leads
        obtain ⟨-, -, rfl, -⟩ := leads_report leads hf
        exact rests_null decider m span
      | specifier v =>
        rw [hv] at leads
        obtain ⟨-, -, hrun⟩ := leads_decideOn leads hf
        have hasked : Asked .require v :=
          ha _ (List.mem_singleton_self _) .require v (by rw [hv]; rfl)
        exact rests_applyToCall role argument hv (hd _ _ _ _ _ hasked hrun hm)
    | items role leads =>
      have hr : reference? false (.node kind span children) = none := by
        simp [reference?, Syntax.Tree.role, role]
      rw [sites_of_reference?_eq_none hr, Syntax.Tree.role, Syntax.Tree.kind_node, role,
        decide_eq_true rfl] at ha
      have hus := rests_visitItems hd leads hf below ha hm
      simp only [visit, role]
      exact hus.bind (.pure m _)
    | @node _ _ _ us _ _ role reference leads =>
      rw [sites_of_reference?_eq_none reference, Syntax.Tree.role, Syntax.Tree.kind_node,
        decide_eq_false role] at ha
      have hus := rests_visitAll hd leads hf below ha hm
      rw [visit_of_reference?_eq_none (reference?_of_leads reference apart leads) role]
      exact hus.bind (.pure m _)

/-- So are trees that stand beside each other. -/
theorem rests_visitAll [LawfulDialect κ] (hd : Settles decider m Asked) {i : Nat}
    {ts us : List (Syntax.Tree κ)} {found found' : Findings} {l l' : Ledger}
    (h : Leads (visitAll decider ts) found l us found' l') (hf : found'.failure = none)
    (hc : ∀ t ∈ ts, CallsApart t) (ha : Asks Asked (sitesAll false i ts)) (hm : l'.Within m) :
    Rests m (visitAll decider us) us := by
  cases ts with
  | nil =>
    obtain ⟨rfl, -, -⟩ := leads_pure.mp h
    exact .pure m []
  | cons t ts =>
    simp only [visitAll, leads_bind, leads_pure] at h
    obtain ⟨u, found₁, l₁, ht, us, _, _, hts, rfl, rfl, rfl⟩ := h
    obtain ⟨hat, hats⟩ := asks_sitesAll_cons ha
    obtain ⟨hct, hcts⟩ := List.forall_mem_cons.mp hc
    obtain ⟨_, hcovers, -⟩ := covers_visitAll (i := i) hts hf
    have hhead := rests_visit hd ht hcovers.begun hct hat ((within_of_leads hts).trans hm)
    have hrest := rests_visitAll hd hts hf hcts hats hm
    exact hhead.bind (hrest.bind (.pure m _))

/-- And so are module items. -/
theorem rests_visitItems [LawfulDialect κ] (hd : Settles decider m Asked) {i : Nat}
    {ts us : List (Syntax.Tree κ)} {found found' : Findings} {l l' : Ledger}
    (h : Leads (visitItems decider ts) found l us found' l') (hf : found'.failure = none)
    (hc : ∀ t ∈ ts, CallsApart t) (ha : Asks Asked (sitesAll true i ts)) (hm : l'.Within m) :
    Rests m (visitItems decider us) us := by
  cases ts with
  | nil =>
    obtain ⟨rfl, -, -⟩ := leads_pure.mp h
    exact .pure m []
  | cons t ts =>
    obtain ⟨hat, hats⟩ := asks_sitesAll_cons ha
    obtain ⟨hct, hcts⟩ := List.forall_mem_cons.mp hc
    cases hs : source? t with
    | some source =>
      simp only [visitItems, hs, leads_bind, leads_map, leads_pure] at h
      obtain ⟨_, found₁, l₁, ⟨action, ht, rfl⟩, us, _, _, hts, rfl, rfl, rfl⟩ := h
      obtain ⟨_, hcovers, -⟩ := covers_visitItems (i := i) hts hf
      obtain ⟨-, -, hrun⟩ := leads_decideOn ht hcovers.begun
      rw [sites_of_reference? (reference?_of_source?_eq_some hs)] at hat
      have hasked : Asked .declaration source :=
        hat _ (List.mem_singleton_self _) .declaration source rfl
      have hsettled := hd _ _ _ _ _ hasked hrun ((within_of_leads hts).trans hm)
      exact rests_applyToDeclaration hs hsettled (rests_visitItems hd hts hf hcts hats hm)
    | none =>
      simp only [visitItems, hs, leads_bind, leads_map, leads_pure] at h
      obtain ⟨_, found₁, l₁, ⟨u, ht, rfl⟩, us, _, _, hts, rfl, rfl, rfl⟩ := h
      obtain ⟨_, hcovers, -⟩ := covers_visitItems (i := i) hts hf
      rw [sites_of_source?_eq_none hs true] at hat
      have hhead := rests_visit hd ht hcovers.begun hct hat ((within_of_leads hts).trans hm)
      have hrest := rests_visitItems hd hts hf hcts hats hm
      change Rests m (visitItems decider (u :: us)) (u :: us)
      simp only [visitItems, source?_of_leads ht hs]
      exact (hhead.map fun t ↦ [t]).bind (hrest.bind (.pure m (u :: us)))

end

end

end Pass

end Relocation
