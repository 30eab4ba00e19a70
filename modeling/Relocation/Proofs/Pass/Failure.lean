import Relocation.Proofs.Pass.Rest

/-!
# The first error of a pass

A pass meets an error at the first site whose specifier gets no answer on the ledger that the
decisions before have left. From that site on nothing is decided, reported or changed. Whatever
decides is a parameter.
-/

namespace Relocation.Pass

open Syntax (Dialect Span)
open Ledger (Program)

variable {κ : Type} [Dialect κ] {α β : Type} {decider : Decider}

/-! ### After an error -/

/-- A step comes to a value after an error, and does nothing. -/
def Idles (x : Step α) (a : α) : Prop :=
  ∀ found : Findings, found.failure.isSome → x.run found = pure (a, found)

namespace Idles

variable {x : Step α} {a : α}

/-- A step without effects idles. -/
protected theorem pure (a : α) : Idles (pure a) a := fun _ _ ↦ rfl

/-- Steps that idle one after the other idle. -/
protected theorem bind {f : α → Step β} {b : β} (hx : Idles x a) (hf : Idles (f a) b) :
    Idles (x >>= f) b := fun found hfound ↦ by
  rw [StateT.run_bind, hx found hfound, pure_bind]
  exact hf found hfound

/-- A step that idles still does if its value is changed. -/
protected theorem map (f : α → β) (hx : Idles x a) : Idles (f <$> x) (f a) := by
  rw [← bind_pure_comp]
  exact hx.bind (.pure (f a))

/-- After an error, a step that idles leads nowhere else. -/
theorem eq_of_leads (hx : Idles x a) {b : α} {found found' : Findings} {l l' : Ledger}
    (h : Leads x found l b found' l') (hf : found.failure.isSome) :
    b = a ∧ found' = found ∧ l' = l := by
  rw [Leads, hx found hf] at h
  cases h
  exact ⟨rfl, rfl, rfl⟩

end Idles

/-- After an error, nothing is decided. -/
theorem idles_decideOn (site : Site) (specifier : String) :
    Idles (decideOn decider site specifier) .keep := fun _ hf ↦ by
  simp [decideOn, StateT.run, hf]

private theorem idles_requireAction (call : Span) (given : Requirement) :
    Idles (requireAction decider call given) .keep := by
  cases given with
  | specifier value => exact idles_decideOn .require value
  | unknown => exact fun _ hf ↦ by simp [requireAction, report, StateT.run, hf]

mutual

/-- After an error a visit leaves the tree as it is. -/
theorem idles_visit (decider : Decider) (t : Syntax.Tree κ) : Idles (visit decider t) t := by
  cases t with
  | node kind span children =>
    unfold visit
    split
    · exact (idles_visitItems decider children).bind (.pure _)
    · split
      · exact (idles_requireAction span _).bind (.pure _)
      · exact (idles_visitAll decider children).bind (.pure _)
    · exact (idles_visitAll decider children).bind (.pure _)

/-- So does a visit of trees that stand beside each other. -/
theorem idles_visitAll (decider : Decider) (ts : List (Syntax.Tree κ)) :
    Idles (visitAll decider ts) ts := by
  cases ts with
  | nil => exact .pure []
  | cons t ts =>
    exact (idles_visit decider t).bind ((idles_visitAll decider ts).bind (.pure _))

/-- And a visit of module items. -/
theorem idles_visitItems (decider : Decider) (ts : List (Syntax.Tree κ)) :
    Idles (visitItems decider ts) ts := by
  cases ts with
  | nil => exact .pure []
  | cons t ts =>
    have hrest := idles_visitItems decider ts
    unfold visitItems
    split
    · next source _ =>
      exact ((idles_decideOn .declaration source).map (applyToDeclaration t)).bind
        (hrest.bind (.pure (t :: ts)))
    · exact ((idles_visit decider t).map fun t ↦ [t]).bind (hrest.bind (.pure (t :: ts)))

end

/-! ### Up to an error -/

/-- Of these sites, `f` is the first whose specifier gets no answer but an error: the decisions
`ds` are on the sites before and lead to the ledger on which it is put. -/
structure FailsAt (decider : Decider) (sites : List (Address × Reference)) (l : Ledger)
    (ds : List Decision) (m : Ledger) (f : Address × Reference) (e : Error) (l' : Ledger) :
    Prop where
  /-- The decisions are on the sites before. -/
  listed : ds.map Decision.site ++ [f] <+: sites
  decided : Decided decider l ds m
  fails : ∃ site specifier, f.2.question? = some (site, specifier) ∧
    (decider site specifier).run m = (.error e, l')

namespace FailsAt

variable {sites : List (Address × Reference)} {l m l' : Ledger} {ds : List Decision}
  {f : Address × Reference} {e : Error}

private theorem append (h : FailsAt decider sites l ds m f e l')
    (later : List (Address × Reference)) : FailsAt decider (sites ++ later) l ds m f e l' :=
  ⟨h.listed.trans (List.prefix_append sites later), h.decided, h.fails⟩

private theorem below (h : FailsAt decider sites l ds m f e l') (i : Nat) :
    FailsAt decider (sites.map (Prod.map (i :: ·) id)) l (ds.map (·.below i)) m
      (i :: f.1, f.2) e l' := by
  refine ⟨?_, h.decided.map_below i, h.fails⟩
  have hmap := h.listed.map (Prod.map (i :: ·) id)
  rw [List.map_append, List.map_map] at hmap
  rwa [List.map_map]

private theorem behind {k : Ledger} {es : List Decision} (hes : Decided decider k es l)
    (h : FailsAt decider sites l ds m f e l') :
    FailsAt decider (es.map Decision.site ++ sites) k (es ++ ds) m f e l' := by
  refine ⟨?_, hes.append h.decided, h.fails⟩
  rw [List.map_append, List.append_assoc]
  exact (List.prefix_append_right_inj _).mpr h.listed

private theorem site_mem (h : FailsAt decider sites l ds m f e l') {d : Decision} (hd : d ∈ ds) :
    d.site ∈ sites :=
  h.listed.subset (List.mem_append_left _ (List.mem_map_of_mem hd))

end FailsAt

/-- A stretch of a pass that meets its first error, over these sites. -/
structure Stops (decider : Decider) (sites : List (Address × Reference)) (ds : List Decision)
    (e : Error) (found found' : Findings) (l l' : Ledger) : Prop where
  fails : ∃ m f, FailsAt decider sites l ds m f e l'
  unknown : found'.unknown = found.unknown ++ ds.filterMap (·.reference.unknown?)

section

variable {found found₁ found' : Findings} {l l₁ l' : Ledger} {ds es : List Decision} {e : Error}

namespace Stops

private theorem site_mem {sites : List (Address × Reference)}
    (h : Stops decider sites ds e found found' l l') {d : Decision} (hd : d ∈ ds) :
    d.site ∈ sites := by
  obtain ⟨m, f, hfails⟩ := h.fails
  exact hfails.site_mem hd

/-- The error is met in a tree, and those behind it are left as they are. -/
theorem within {inItems : Bool} {t : Syntax.Tree κ} {kept : List (Syntax.Tree κ)} {i : Nat}
    (h : Stops decider (sites inItems t) ds e found found' l l')
    (hkept : edit (editsOf ds) t = kept) (ts : List (Syntax.Tree κ)) :
    Stops decider (sitesAll inItems i (t :: ts)) (ds.map (·.below i)) e found found' l l' ∧
      editAll (editsOf (ds.map (·.below i))) i (t :: ts) = kept ++ ts := by
  obtain ⟨⟨m, f, hfails⟩, hunknown⟩ := h
  refine ⟨⟨⟨m, _, (hfails.below i).append _⟩, ?_⟩, ?_⟩
  · rw [hunknown, List.filterMap_map]
    rfl
  · have hedit : editAll (editsOf (ds.map (·.below i) ++ [])) i (t :: ts) = _ :=
      editAll_append ds (show ∀ d ∈ ([] : List Decision), d.site ∈ sitesAll inItems (i + 1) ts from
        List.forall_mem_nil _)
    rw [List.append_nil] at hedit
    rw [hedit, hkept, editAll_eq_self fun _ _ _ ↦ rfl]

/-- The error is met in one of the trees behind a tree that was visited without one. -/
theorem behind {inItems : Bool} {t : Syntax.Tree κ} {ts kept ts' : List (Syntax.Tree κ)} {i : Nat}
    (ht : Covers decider (sites inItems t) ds found found₁ l l₁)
    (hkept : edit (editsOf ds) t = kept)
    (h : Stops decider (sitesAll inItems (i + 1) ts) es e found₁ found' l₁ l')
    (hts' : editAll (editsOf es) (i + 1) ts = ts') :
    Stops decider (sitesAll inItems i (t :: ts)) (ds.map (·.below i) ++ es) e found found' l l' ∧
      editAll (editsOf (ds.map (·.below i) ++ es)) i (t :: ts) = kept ++ ts' := by
  obtain ⟨⟨m, f, hfails⟩, hunknown⟩ := h
  refine ⟨⟨⟨m, f, ?_⟩, ?_⟩, ?_⟩
  · have hbehind := hfails.behind (ht.decided.map_below i)
    rwa [List.map_map, show Decision.site ∘ (·.below i) = Prod.map (i :: ·) id ∘ Decision.site
      from rfl, ← List.map_map, ht.about] at hbehind
  · rw [hunknown, ht.unknown, List.append_assoc, List.filterMap_append, List.filterMap_map]
    rfl
  · rw [editAll_append ds fun d hd ↦ hfails.site_mem hd, hkept, hts']

end Stops

/-- A decision that meets an error gets no other answer, and changes nothing else. -/
theorem fails_decideOn {site : Site} {specifier : String} {action : Action}
    (h : Leads (decideOn decider site specifier) found l action found' l')
    (hb : found.failure = none) (he : found'.failure = some e) :
    action = .keep ∧ found'.unknown = found.unknown ∧
      (decider site specifier).run l = (.error e, l') := by
  rw [Leads, run_decideOn hb, Program.run_bind] at h
  generalize (decider site specifier).run l = answered at h ⊢
  obtain ⟨answer, m⟩ := answered
  cases answer with
  | ok a =>
    cases h
    cases hb.symm.trans he
  | error e' =>
    cases h
    cases he
    exact ⟨rfl, rfl, rfl⟩

/-- A decision that meets an error, as the first of all sites. -/
theorem stops_decideOn {r : Reference} {site : Site} {specifier : String} {action : Action}
    (hq : r.question? = some (site, specifier))
    (h : Leads (decideOn decider site specifier) found l action found' l')
    (hb : found.failure = none) (he : found'.failure = some e) :
    action = .keep ∧ Stops decider [([], r)] [] e found found' l l' := by
  obtain ⟨rfl, hunknown, hrun⟩ := fails_decideOn h hb he
  refine ⟨rfl, ⟨l, ([], r), List.prefix_refl _, .nil l, site, specifier, hq, hrun⟩, ?_⟩
  rw [hunknown, List.filterMap_nil, List.append_nil]

/-- A call that meets an error is left as it is. -/
theorem stops_requireAction {span : Span} {given : Requirement} {action : Action}
    (h : Leads (requireAction decider span given) found l action found' l')
    (hb : found.failure = none) (he : found'.failure = some e) :
    action = .keep ∧ Stops decider [([], .call span given)] [] e found found' l l' := by
  cases given with
  | specifier value => exact stops_decideOn rfl h hb he
  | unknown =>
    -- a report meets no error
    simp only [Leads, requireAction, report, StateT.run, hb, Option.isSome_none,
      Bool.false_eq_true, if_false] at h
    cases h
    cases he

end

mutual

/-- A visit that meets the first error of a pass stops at the first site that fails, and the tree
is edited by the decisions before. -/
theorem stops_visit {t t' : Syntax.Tree κ} {found found' : Findings} {l l' : Ledger} {e : Error}
    (h : Leads (visit decider t) found l t' found' l') (hb : found.failure = none)
    (he : found'.failure = some e) :
    ∃ ds, Stops decider (sites false t) ds e found found' l l' ∧ edit (editsOf ds) t = [t'] := by
  cases t with
  | node kind span children =>
    cases visited_of_leads h with
    | @call _ _ _ x _ _ _ role argument leads =>
      obtain ⟨rfl, hstops⟩ := stops_requireAction leads hb he
      have hr : reference? false (.node kind span children) =
          some (.call span (requirement x)) :=
        reference?_false_eq_some.mpr ⟨x, argument, role, rfl⟩
      rw [sites_of_reference? hr]
      exact ⟨[], hstops, edit_eq_self (fun _ ↦ rfl) _⟩
    | @items _ _ _ us _ _ role leads =>
      obtain ⟨ds, hstops, hedit⟩ := stops_visitItems (i := 0) leads hb he
      have hr : reference? false (.node kind span children) = none := by
        simp [reference?, Syntax.Tree.role, role]
      refine ⟨ds, ?_, ?_⟩
      · rwa [sites_of_reference?_eq_none hr, Syntax.Tree.role, Syntax.Tree.kind_node, role,
          decide_eq_true rfl]
      · rw [edit_of_root (editsOf_root fun d hd ↦ hstops.site_mem hd), Syntax.Tree.children_node,
          hedit]
        rfl
    | @node _ _ _ us _ _ role reference leads =>
      obtain ⟨ds, hstops, hedit⟩ := stops_visitAll (i := 0) leads hb he
      refine ⟨ds, ?_, ?_⟩
      · rwa [sites_of_reference?_eq_none reference, Syntax.Tree.role, Syntax.Tree.kind_node,
          decide_eq_false role]
      · rw [edit_of_root (editsOf_root fun d hd ↦ hstops.site_mem hd), Syntax.Tree.children_node,
          hedit]
        rfl

/-- So does a visit of trees that stand beside each other. -/
theorem stops_visitAll {ts ts' : List (Syntax.Tree κ)} {i : Nat} {found found' : Findings}
    {l l' : Ledger} {e : Error} (h : Leads (visitAll decider ts) found l ts' found' l')
    (hb : found.failure = none) (he : found'.failure = some e) :
    ∃ ds, Stops decider (sitesAll false i ts) ds e found found' l l' ∧
      editAll (editsOf ds) i ts = ts' := by
  cases ts with
  | nil =>
    obtain ⟨-, rfl, -⟩ := leads_pure.mp h
    cases hb.symm.trans he
  | cons t ts =>
    simp only [visitAll, leads_bind, leads_pure] at h
    obtain ⟨u, found₁, l₁, ht, us, _, _, hts, rfl, rfl, rfl⟩ := h
    cases hfound₁ : found₁.failure with
    | none =>
      obtain ⟨ds, hds, hkept⟩ := covers_visit ht hfound₁
      obtain ⟨es, hes, hedit⟩ := stops_visitAll (i := i + 1) hts hfound₁ he
      exact ⟨_, Stops.behind hds hkept hes hedit⟩
    | some e₁ =>
      obtain ⟨rfl, rfl, rfl⟩ := (idles_visitAll decider ts).eq_of_leads hts (by simp [hfound₁])
      obtain ⟨ds, hds, hkept⟩ := stops_visit ht hb he
      exact ⟨_, hds.within hkept us⟩

/-- So does a visit of a list of module items. -/
theorem stops_visitItems {ts ts' : List (Syntax.Tree κ)} {i : Nat} {found found' : Findings}
    {l l' : Ledger} {e : Error} (h : Leads (visitItems decider ts) found l ts' found' l')
    (hb : found.failure = none) (he : found'.failure = some e) :
    ∃ ds, Stops decider (sitesAll true i ts) ds e found found' l l' ∧
      editAll (editsOf ds) i ts = ts' := by
  cases ts with
  | nil =>
    obtain ⟨-, rfl, -⟩ := leads_pure.mp h
    cases hb.symm.trans he
  | cons t ts =>
    cases hs : source? t with
    | some source =>
      have hr := reference?_of_source?_eq_some hs
      simp only [visitItems, hs, leads_bind, leads_map, leads_pure] at h
      obtain ⟨_, found₁, l₁, ⟨action, ht, rfl⟩, us, _, _, hts, rfl, rfl, rfl⟩ := h
      cases hfound₁ : found₁.failure with
      | none =>
        have hds := covers_decideOn ht hfound₁
        rw [← sites_of_reference? hr] at hds
        obtain ⟨es, hes, hedit⟩ := stops_visitItems (i := i + 1) hts hfound₁ he
        exact ⟨_, Stops.behind hds (edit_declaration hs action) hes hedit⟩
      | some e₁ =>
        obtain ⟨rfl, rfl, rfl⟩ :=
          (idles_visitItems decider ts).eq_of_leads hts (by simp [hfound₁])
        obtain ⟨rfl, hds⟩ := stops_decideOn (r := .declaration source) rfl ht hb he
        rw [← sites_of_reference? hr] at hds
        exact ⟨_, hds.within (edit_eq_self (fun _ ↦ rfl) t) us⟩
    | none =>
      simp only [visitItems, hs, leads_bind, leads_map, leads_pure] at h
      obtain ⟨_, found₁, l₁, ⟨u, ht, rfl⟩, us, _, _, hts, rfl, rfl, rfl⟩ := h
      cases hfound₁ : found₁.failure with
      | none =>
        obtain ⟨ds, hds, hkept⟩ := covers_visit ht hfound₁
        rw [← sites_of_source?_eq_none hs true] at hds
        obtain ⟨es, hes, hedit⟩ := stops_visitItems (i := i + 1) hts hfound₁ he
        exact ⟨_, Stops.behind hds hkept hes hedit⟩
      | some e₁ =>
        obtain ⟨rfl, rfl, rfl⟩ :=
          (idles_visitItems decider ts).eq_of_leads hts (by simp [hfound₁])
        obtain ⟨ds, hds, hkept⟩ := stops_visit ht hb he
        rw [← sites_of_source?_eq_none hs true] at hds
        exact ⟨_, hds.within hkept us⟩

end

/-! ### The first site that fails -/

/-- Decisions preserve what each of them preserves. -/
theorem Decided.preserves {P : Ledger → Prop} {ds : List Decision} {l m : Ledger}
    (h : Decided decider l ds m)
    (hd : ∀ {site specifier answer l l'}, (decider site specifier).run l = (answer, l') →
      P l → P l') (hl : P l) : P m := by
  induction h with
  | nil => exact hl
  | asked _ answer _ ih => exact ih (hd answer hl)
  | unknown _ _ _ ih => exact ih hl

/-- What is decided on one ledger is decided in one way. -/
theorem Decided.exists_of_prefix {ds es : List Decision} {l m n : Ledger}
    (h : Decided decider l ds m) (g : Decided decider l es n)
    (hp : ds.map Decision.site <+: es.map Decision.site) :
    ∃ fs, es = ds ++ fs ∧ Decided decider m fs n := by
  induction h generalizing es with
  | nil l => exact ⟨es, rfl, g⟩
  | @asked d ds _ _ _ _ _ question answer _ ih =>
    cases g with
    | nil => simp at hp
    | @asked d' _ _ _ _ _ _ question' answer' rest' =>
      obtain ⟨hd, hrest⟩ := List.cons_prefix_cons.mp hp
      obtain ⟨a, r, action⟩ := d
      obtain ⟨a', r', action'⟩ := d'
      cases hd
      cases question.symm.trans question'
      cases answer.symm.trans answer'
      obtain ⟨fs, rfl, hfs⟩ := ih rest' hrest
      exact ⟨fs, rfl, hfs⟩
    | @unknown d' _ _ _ question' =>
      obtain ⟨hd, -⟩ := List.cons_prefix_cons.mp hp
      obtain ⟨-, hr⟩ := Prod.mk.inj hd
      cases question.symm.trans (hr ▸ question')
  | @unknown d ds _ _ question action _ ih =>
    cases g with
    | nil => simp at hp
    | @asked d' _ _ _ _ _ _ question' =>
      obtain ⟨hd, -⟩ := List.cons_prefix_cons.mp hp
      obtain ⟨-, hr⟩ := Prod.mk.inj hd
      cases question.symm.trans (hr ▸ question')
    | @unknown d' _ _ _ question' action' rest' =>
      obtain ⟨hd, hrest⟩ := List.cons_prefix_cons.mp hp
      obtain ⟨a, r, _⟩ := d
      obtain ⟨a', r', _⟩ := d'
      cases hd
      obtain rfl : _ = Action.replaceWithNull := action
      obtain rfl : _ = Action.replaceWithNull := action'
      obtain ⟨fs, rfl, hfs⟩ := ih rest' hrest
      exact ⟨fs, rfl, hfs⟩

namespace FailsAt

variable {sites : List (Address × Reference)} {l m n k k' : Ledger} {ds es : List Decision}
  {f g : Address × Reference} {e e' : Error}

/-- A site that fails is not decided. -/
theorem not_prefix (h : FailsAt decider sites l ds m f e k) (hes : Decided decider l es n) :
    ¬ds.map Decision.site ++ [f] <+: es.map Decision.site := by
  intro hp
  obtain ⟨fs, rfl, hfs⟩ := h.decided.exists_of_prefix hes ((List.prefix_append _ _).trans hp)
  obtain ⟨site, specifier, hq, hrun⟩ := h.fails
  rw [List.map_append, List.prefix_append_right_inj] at hp
  cases hfs with
  | nil => simp at hp
  | asked question answer =>
    obtain ⟨rfl, -⟩ := List.cons_prefix_cons.mp hp
    cases question.symm.trans hq
    cases answer.symm.trans hrun
  | unknown question =>
    obtain ⟨rfl, -⟩ := List.cons_prefix_cons.mp hp
    cases question.symm.trans hq

/-- Only one site is the first to fail. -/
theorem unique (h : FailsAt decider sites l ds m f e k)
    (h' : FailsAt decider sites l es n g e' k') : ds = es ∧ m = n ∧ f = g ∧ e = e' := by
  rcases Nat.lt_trichotomy ds.length es.length with hlen | hlen | hlen
  · refine absurd ?_ (h.not_prefix h'.decided)
    exact List.prefix_of_prefix_length_le h.listed ((List.prefix_append _ _).trans h'.listed)
      (by simpa using Nat.succ_le_of_lt hlen)
  · have hlisted : ds.map Decision.site ++ [f] = es.map Decision.site ++ [g] :=
      (List.prefix_of_prefix_length_le h.listed h'.listed (by simp [hlen])).eq_of_length
        (by simp [hlen])
    obtain ⟨hsites, hsite⟩ := List.append_inj' hlisted rfl
    obtain rfl : f = g := List.head_eq_of_cons_eq hsite
    obtain ⟨fs, rfl, hfs⟩ := h.decided.exists_of_prefix h'.decided (hsites ▸ List.prefix_refl _)
    obtain rfl : fs = [] := List.length_eq_zero_iff.mp (by simpa using hlen)
    cases hfs
    obtain ⟨site, specifier, hq, hrun⟩ := h.fails
    obtain ⟨site', specifier', hq', hrun'⟩ := h'.fails
    cases hq.symm.trans hq'
    cases hrun.symm.trans hrun'
    exact ⟨(List.append_nil _).symm, rfl, rfl, rfl⟩
  · refine absurd ?_ (h'.not_prefix h.decided)
    exact List.prefix_of_prefix_length_le h'.listed ((List.prefix_append _ _).trans h.listed)
      (by simpa using Nat.succ_le_of_lt hlen)

end FailsAt

/-! ### What is left untouched -/

private theorem exists_mem_editAll {e : Address → Option Edit} {ts : List (Syntax.Tree κ)}
    {i j : Nat} {c c' : Syntax.Tree κ} (h : ts[j]? = some c)
    (hc : edit (fun a ↦ e ((i + j) :: a)) c = [c']) :
    ∃ k : Nat, (editAll e i ts)[k]? = some c' := by
  have hmem : c' ∈ editAll e i ts := by
    induction ts generalizing i j with
    | nil => cases h
    | cons t ts ih =>
      rw [editAll, List.mem_append]
      cases j with
      | zero =>
        cases h
        have hc : edit (fun a ↦ e (i :: a)) c = [c'] := hc
        exact .inl (hc ▸ List.mem_singleton_self c')
      | succ j => exact .inr (ih (i := i + 1) h (by rwa [Nat.add_right_comm, Nat.add_assoc]))
  exact List.getElem?_of_mem hmem

/-- A tree stays as it is if nothing is edited above it and inside it. -/
theorem exists_subtree?_edit {e : Address → Option Edit} {inItems stands : Bool}
    {t u : Syntax.Tree κ} {b : Address} (h : subtree? inItems t b = some (stands, u))
    (he : ∀ c, c <+: b ∨ b <+: c → e c = none) :
    ∃ t' c, edit e t = [t'] ∧ subtree? inItems t' c = some (stands, u) := by
  induction b generalizing inItems t e with
  | nil => exact ⟨t, [], edit_eq_self (fun c ↦ he c (.inr (List.nil_prefix ..))) t, h⟩
  | cons i b ih =>
    obtain ⟨c, hc, hu⟩ := Option.bind_eq_some_iff.mp h
    obtain ⟨c', a, hc', ha⟩ := ih (e := fun a ↦ e (i :: a)) hu fun a ha ↦
      he (i :: a) (by simpa using ha)
    obtain ⟨k, hk⟩ := exists_mem_editAll (i := 0) hc (by rwa [Nat.zero_add])
    refine ⟨_, k :: a, edit_of_root (he [] (.inl (List.nil_prefix ..))) t, ?_⟩
    exact Option.bind_eq_some_iff.mpr ⟨c', hk, ha⟩

/-- What stands below an address stands together in the order of addresses. -/
private theorem prefix_of_lt {a b x : Address} (hx : x < a) (hab : ¬b < a) (hb : x <+: b) :
    x <+: a := by
  induction x generalizing a b with
  | nil => exact List.nil_prefix ..
  | cons i x ih =>
    obtain ⟨z, rfl⟩ := hb
    match a, hx with
    | j :: a, hx =>
      rw [List.cons_append, List.cons_lt_cons_iff] at hab
      rw [List.cons_lt_cons_iff] at hx
      obtain rfl : i = j := by omega
      refine List.cons_prefix_cons.mpr ⟨rfl, ih ?_ ?_ (List.prefix_append x z)⟩
      · simpa using hx
      · simpa using hab

/-- Decisions on sites before a site are in the order of their addresses, and it stands behind
them. -/
theorem pairwise_of_listed {t : Syntax.Tree κ} {ds : List Decision} {f : Address × Reference}
    (h : ds.map Decision.site ++ [f] <+: sites false t) :
    (ds.map (·.address) ++ [f.1]).Pairwise (· < ·) := by
  have hp := (pairwise_sites false t).sublist (h.sublist.map (·.1))
  rwa [List.map_append, List.map_map] at hp

/-- Decisions on sites before a site edit nothing from this site on. -/
theorem editsOf_eq_none_of_not_lt {t : Syntax.Tree κ} {ds : List Decision} {f : Address × Reference}
    (h : ds.map Decision.site ++ [f] <+: sites false t) {b c : Address} (hb : ¬b < f.1)
    (hc : c <+: b ∨ b <+: c) : editsOf ds c = none := by
  have hordered := pairwise_of_listed h
  refine editsOf_eq_none fun d hd hdc ↦ ?_
  have hlt : d.address < f.1 :=
    (List.pairwise_append.mp hordered).2.2 _ (List.mem_map_of_mem hd) _ (List.mem_singleton_self _)
  have hsite : IsSite false t d.address d.reference :=
    mem_sites_iff.mp (h.subset (List.mem_append_left _ (List.mem_map_of_mem hd)))
  have hf : IsSite false t f.1 f.2 := mem_sites_iff.mp (h.subset (by simp))
  -- otherwise `f` would lie inside the site of the decision
  have hprefix : d.address <+: b := by
    rcases hc with hc | hc
    · exact hdc.trans hc
    · refine (List.prefix_or_prefix_of_prefix hdc hc).resolve_right fun hbd ↦ ?_
      exact hb (List.lt_of_le_of_lt hbd.le hlt)
  have hne : d.address ≠ f.1 := fun he ↦ List.lt_irrefl _ (he ▸ hlt)
  exact hf.2 d.address (prefix_of_lt hlt hb hprefix) hne d.reference hsite.1

end Relocation.Pass
