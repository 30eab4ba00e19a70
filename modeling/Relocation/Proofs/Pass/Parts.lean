import Relocation.Proofs.Pass.Rest

/-!
# What becomes of the parts of a tree

A part of a tree that lies in no reference is visited by a pass, or decided if it is a reference.
So what a pass without an error leaves outside of references comes from such parts: each reference
there has the specifier that its decision has left, and whatever else stood there still does. What
lies in a reference that is left was there before.
-/

namespace Relocation.Pass

open Syntax (Dialect LawfulDialect Span)

variable {κ : Type} [Dialect κ] {decider : Decider} {inItems stands : Bool}
  {t t' u u' : Syntax.Tree κ} {ts us : List (Syntax.Tree κ)} {found found' : Findings}
  {l l' : Ledger} {a : Address} {r : Reference}

/-! ### One part -/

/-- What a pass without an error makes of a part that lies in no reference. -/
inductive Becomes (decider : Decider) : Bool → Syntax.Tree κ → Syntax.Tree κ → Prop where
  | visited {inItems : Bool} {t t' : Syntax.Tree κ} {found found' : Findings} {l l' : Ledger}
      (place : inItems = true → source? t = none)
      (leads : Leads (visit decider t) found l t' found' l') (success : found'.failure = none) :
      Becomes decider inItems t t'
  | declared {t t' : Syntax.Tree κ} {v : String} {action : Action} {l l' : Ledger}
      (source : source? t = some v)
      (answer : (decider .declaration v).run l = (.ok action, l'))
      (made : applyToDeclaration t action = [t']) : Becomes decider true t t'

/-- Each tree of a list has come from one of another, and all of that but its references have
become one. -/
structure Matches (decider : Decider) (inItems : Bool) (ts us : List (Syntax.Tree κ)) :
    Prop where
  from_before : ∀ u ∈ us, ∃ t ∈ ts, Becomes decider inItems t u
  still_there : ∀ t ∈ ts, reference? inItems t = none → ∃ u ∈ us, Becomes decider inItems t u

namespace Matches

/-- Nothing has come of nothing. -/
protected theorem nil (decider : Decider) (inItems : Bool) :
    Matches decider inItems ([] : List (Syntax.Tree κ)) [] :=
  ⟨nofun, nofun⟩

/-- What has come of the first tree stands in front of what has come of the others. -/
protected theorem cons {kept : List (Syntax.Tree κ)}
    (hfrom : ∀ u ∈ kept, Becomes decider inItems t u)
    (hstill : reference? inItems t = none → ∃ u ∈ kept, Becomes decider inItems t u)
    (h : Matches decider inItems ts us) : Matches decider inItems (t :: ts) (kept ++ us) := by
  refine ⟨fun u hu ↦ ?_, fun c hc hr ↦ ?_⟩
  · rcases List.mem_append.mp hu with hu | hu
    · exact ⟨t, List.mem_cons_self, hfrom u hu⟩
    · obtain ⟨c, hc, hcu⟩ := h.from_before u hu
      exact ⟨c, List.mem_cons_of_mem t hc, hcu⟩
  · rcases List.mem_cons.mp hc with rfl | hc
    · obtain ⟨u, hu, hcu⟩ := hstill hr
      exact ⟨u, List.mem_append_left us hu, hcu⟩
    · obtain ⟨u, hu, hcu⟩ := h.still_there c hc hr
      exact ⟨u, List.mem_append_right kept hu, hcu⟩

end Matches

private theorem matches_of_leads_visitAll (h : Leads (visitAll decider ts) found l us found' l')
    (hf : found'.failure = none) : Matches decider false ts us := by
  induction ts generalizing found l us with
  | nil =>
    obtain ⟨rfl, -, -⟩ := leads_pure.mp h
    exact .nil decider false
  | cons t ts ih =>
    simp only [visitAll, leads_bind, leads_pure] at h
    obtain ⟨u, found₁, l₁, ht, us, _, _, hts, rfl, rfl, rfl⟩ := h
    obtain ⟨_, hcovers, -⟩ := covers_visitAll (i := 0) hts hf
    have hu : Becomes decider false t u := .visited (fun h ↦ by cases h) ht hcovers.begun
    have hall : Matches decider false (t :: ts) ([u] ++ us) :=
      .cons (by simpa using hu) (fun _ ↦ ⟨u, by simp, hu⟩) (ih hts)
    exact hall

private theorem matches_of_leads_visitItems (h : Leads (visitItems decider ts) found l us found' l')
    (hf : found'.failure = none) : Matches decider true ts us := by
  induction ts generalizing found l us with
  | nil =>
    obtain ⟨rfl, -, -⟩ := leads_pure.mp h
    exact .nil decider true
  | cons t ts ih =>
    cases hs : source? t with
    | some source =>
      simp only [visitItems, hs, leads_bind, leads_map, leads_pure] at h
      obtain ⟨_, found₁, l₁, ⟨action, ht, rfl⟩, us, _, _, hts, rfl, rfl, rfl⟩ := h
      obtain ⟨_, hcovers, -⟩ := covers_visitItems (i := 0) hts hf
      obtain ⟨-, -, answer⟩ := leads_decideOn ht hcovers.begun
      refine .cons (fun u hu ↦ ?_) (fun hr ↦ ?_) (ih hts)
      · refine .declared hs answer ?_
        cases action <;> simp_all [applyToDeclaration]
      · cases hr.symm.trans (reference?_of_source?_eq_some hs)
    | none =>
      simp only [visitItems, hs, leads_bind, leads_map, leads_pure] at h
      obtain ⟨_, found₁, l₁, ⟨u, ht, rfl⟩, us, _, _, hts, rfl, rfl, rfl⟩ := h
      obtain ⟨_, hcovers, -⟩ := covers_visitItems (i := 0) hts hf
      have hu : Becomes decider true t u := .visited (fun _ ↦ hs) ht hcovers.begun
      exact .cons (by simpa using hu) (fun _ ↦ ⟨u, by simp, hu⟩) (ih hts)

/-- A part that is no reference stays around what becomes of its children. -/
theorem Becomes.around (h : Becomes decider inItems t t') (hr : reference? inItems t = none) :
    t'.role = t.role ∧ Matches decider (t.role = .items) t.children t'.children := by
  cases h with
  | declared source => cases hr.symm.trans (reference?_of_source?_eq_some source)
  | visited place leads success =>
    cases visited_of_leads leads with
    | call role argument => simp [reference?, Syntax.Tree.role, role, argument] at hr
    | items role leads =>
      refine ⟨rfl, ?_⟩
      simpa [Syntax.Tree.role, role] using matches_of_leads_visitItems leads success
    | node role _ leads =>
      refine ⟨rfl, ?_⟩
      simpa [Syntax.Tree.role, role] using matches_of_leads_visitAll leads success

/-- A reference with another specifier in the place of its own. -/
def respecify (v : String) (t : Syntax.Tree κ) : Syntax.Tree κ :=
  if t.role = .call then .node t.kind t.span (withArgument v t.children) else withSource v t

/-- A reference is gone, unless its decision leaves its specifier or writes another one. -/
theorem Becomes.of_reference? (h : Becomes decider inItems t t')
    (hr : reference? inItems t = some r) :
    t'.children = [] ∨ ∃ site v action l l', r.question? = some (site, v) ∧
      (decider site v).run l = (.ok action, l') ∧
      ((action = .keep ∧ t' = t) ∨ ∃ w, action = .replace w ∧ t' = respecify w t) := by
  cases h with
  | @declared _ _ v action l l' source answer made =>
    obtain rfl := Option.some.inj (hr.symm.trans (reference?_of_source?_eq_some source))
    refine .inr ⟨.declaration, v, action, l, l', rfl, answer, ?_⟩
    have hrole : t.role ≠ .call := by simp [(source?_eq_some.mp source).1]
    cases action with
    | keep => exact .inl ⟨rfl, (List.singleton_inj.mp made).symm⟩
    | replace w =>
      refine .inr ⟨w, rfl, ?_⟩
      rw [respecify, if_neg hrole]
      exact (List.singleton_inj.mp made).symm
    | remove => cases made
    | replaceWithNull => cases made
  | visited place leads success =>
    cases visited_of_leads leads with
    | @call kind span children e action _ _ role argument inner =>
      have hreference : reference? inItems (.node kind span children) =
          some (.call span (requirement e)) := by
        simp [reference?, Syntax.Tree.role, role, argument]
      obtain rfl := Option.some.inj (hr.symm.trans hreference)
      cases hv : requirement e with
      | unknown =>
        rw [hv] at inner
        obtain ⟨-, -, rfl, -⟩ := leads_report inner success
        exact .inl rfl
      | specifier v =>
        rw [hv] at inner
        obtain ⟨-, -, answer⟩ := leads_decideOn inner success
        cases action with
        | keep => exact .inr ⟨.require, v, _, _, _, rfl, answer, .inl ⟨rfl, rfl⟩⟩
        | replace w =>
          refine .inr ⟨.require, v, _, _, _, rfl, answer, .inr ⟨w, rfl, ?_⟩⟩
          exact (if_pos role).symm
        | remove => exact .inl rfl
        | replaceWithNull => exact .inl rfl
    | items role => simp [reference?, Syntax.Tree.role, role] at hr
    | node role reference =>
      cases inItems with
      | false => cases hr.symm.trans reference
      | true =>
        rw [reference?_of_source?_eq_none (place rfl)] at hr
        cases hr.symm.trans reference

/-- What lies in such a reference was there before, but for the literal and what holds only it. -/
theorem subtree?_of_respecify (hr : reference? inItems t = some r) (hc : CallsApart t) {w : String}
    {i : Nat} (hu : subtree? inItems (respecify w t) (i :: a) = some (stands, u)) :
    subtree? inItems t (i :: a) = some (stands, u) ∨ (stands = false ∧ u.children.length ≤ 1) := by
  obtain ⟨kind, span, children⟩ := t
  obtain ⟨apart, -⟩ := hc
  cases reference?_eq_some_iff.mp hr with
  | @declaration _ s rest source role children text =>
    obtain rfl := children
    have hdeclaration : Syntax.Tree.role (.node kind span (s :: rest)) ≠ .items := by simp [role]
    rw [respecify, if_neg (by simp [role])] at hu
    rcases i with _ | i
    · rcases a with _ | ⟨j, a⟩
      · cases hu
        exact .inr ⟨decide_eq_false hdeclaration, Nat.zero_le 1⟩
      · cases hu
    · exact .inl hu
  | @call _ _ callee arguments argument e rest role children name only unspread expression =>
    obtain rfl := children
    have hcall : Syntax.Tree.role (.node kind span (callee :: arguments :: rest)) ≠ .items := by
      simp [role]
    have harguments : arguments.role ≠ .items := apart role arguments (by simp)
    have hargument : argument.role ≠ .items := by simp [unspread]
    rw [respecify, if_pos role] at hu
    simp only [withArgument, only, expression, List.map_cons, List.map_nil,
      Syntax.Tree.children_node] at hu
    rcases i with _ | _ | i
    · exact .inl hu
    · -- the list of arguments, its only argument and the literal
      rcases a with _ | ⟨_ | j, _ | ⟨_ | k, _ | ⟨n, a⟩⟩⟩
      · cases hu
        exact .inr ⟨decide_eq_false hcall, by simp⟩
      · cases hu
        exact .inr ⟨decide_eq_false harguments, by simp⟩
      · cases hu
        exact .inr ⟨decide_eq_false hargument, Nat.zero_le 1⟩
      all_goals cases hu
    · exact .inl hu

variable [LawfulDialect κ]

/-- A part that is no reference does not become one. -/
theorem Becomes.reference?_eq_none (h : Becomes decider inItems t t') (hc : CallsApart t)
    (hr : reference? inItems t = none) : reference? inItems t' = none := by
  cases h with
  | declared source => cases hr.symm.trans (reference?_of_source?_eq_some source)
  | visited place leads success =>
    have hvisited := visited_of_leads leads
    cases hvisited with
    | call role argument => simp [reference?, Syntax.Tree.role, role, argument] at hr
    | items role => simp [reference?, Syntax.Tree.role, role]
    | node role reference inner =>
      obtain ⟨apart, -⟩ := hc
      have hfalse := reference?_of_leads reference apart inner
      cases inItems with
      | false => exact hfalse
      | true => rwa [reference?_of_source?_eq_none (source?_of_leads leads (place rfl))]

/-- A reference that has been given another specifier has that one. -/
theorem reference?_respecify (hr : reference? inItems t = some r) (w : String) :
    ∃ q, reference? inItems (respecify w t) = some q ∧
      ∀ site v, r.question? = some (site, v) → q.question? = some (site, w) := by
  cases reference?_eq_some_iff.mp hr with
  | declaration role children text =>
    have hsource : source? t = some _ := source?_eq_some.mpr ⟨role, _, _, children, text⟩
    refine ⟨.declaration w, ?_, fun site v hq ↦ by cases hq; rfl⟩
    rw [respecify, if_neg (by simp [role])]
    exact reference?_of_source?_eq_some (source?_withSource hsource w).1
  | @call _ _ _ _ _ e _ role children name only unspread expression =>
    have hargument : requireArgument? t.children = some e :=
      requireArgument?_eq_some.mpr ⟨_, _, _, _, children, name, only, unspread, expression⟩
    have hwritten := (requireArgument?_withArgument hargument w).1
    refine ⟨.call t.span (.specifier w), ?_, fun site v hq ↦ ?_⟩
    · have hkind : Dialect.role t.kind = .call := role
      simp [respecify, reference?, Syntax.Tree.role, hkind, hwritten, requirement_literal]
    · match requirement e, hq with
      | .specifier v, hq =>
        cases hq
        rfl

/-- A part that is left with children and is no reference was none. -/
theorem Becomes.reference?_eq_none_before (h : Becomes decider inItems t t')
    (hr : reference? inItems t' = none) (hchildren : t'.children ≠ []) :
    reference? inItems t = none := by
  refine Option.eq_none_iff_forall_ne_some.mpr fun q hq ↦ ?_
  rcases h.of_reference? hq with hnil | ⟨_, _, _, _, _, -, -, ⟨-, rfl⟩ | ⟨w, -, rfl⟩⟩
  · exact hchildren hnil
  · cases hr.symm.trans hq
  · obtain ⟨_, hw, -⟩ := reference?_respecify hq w
    cases hr.symm.trans hw

/-- A reference that is left was one, and has what its decision leaves in the place of its
specifier. -/
theorem Becomes.reference?_before (h : Becomes decider inItems t t') (hc : CallsApart t)
    (hr : reference? inItems t' = some r) :
    ∃ q site v action l l', reference? inItems t = some q ∧ q.question? = some (site, v) ∧
      (decider site v).run l = (.ok action, l') ∧
      ((action = .keep ∧ t' = t) ∨
        ∃ w, action = .replace w ∧ t' = respecify w t ∧ r.question? = some (site, w)) := by
  cases hq : reference? inItems t with
  | none => cases hr.symm.trans (h.reference?_eq_none hc hq)
  | some q =>
    rcases h.of_reference? hq with hnil | ⟨site, v, action, l, l', hv, answer, hleft⟩
    · -- a reference has children
      cases reference?_eq_some_iff.mp hr with
      | declaration _ children => cases hnil.symm.trans children
      | call _ children => cases hnil.symm.trans children
    · refine ⟨q, site, v, action, l, l', rfl, hv, answer, hleft.imp_right ?_⟩
      rintro ⟨w, rfl, rfl⟩
      obtain ⟨q', hw, hquestion⟩ := reference?_respecify hq w
      obtain rfl := Option.some.inj (hw.symm.trans hr)
      exact ⟨w, rfl, rfl, hquestion site v hv⟩

/-- A child of what is left, and is no reference, comes from a child of what was none. -/
theorem Becomes.exists_child_before (h : Becomes decider inItems t t')
    (hr : reference? inItems t' = none) {i : Nat} {c' : Syntax.Tree κ}
    (hi : t'.children[i]? = some c') :
    reference? inItems t = none ∧ t'.role = t.role ∧
      ∃ (j : Nat) (c : Syntax.Tree κ), t.children[j]? = some c ∧
        Becomes decider (t.role = .items) c c' := by
  have hmem := List.mem_of_getElem? hi
  have hbefore := h.reference?_eq_none_before hr (List.ne_nil_of_mem hmem)
  obtain ⟨hrole, hmatches⟩ := h.around hbefore
  obtain ⟨c, hc, hbecomes⟩ := hmatches.from_before c' hmem
  obtain ⟨j, hj⟩ := List.mem_iff_getElem?.mp hc
  exact ⟨hbefore, hrole, j, c, hj, hbecomes⟩

/-! ### Parts by their addresses -/

/-- What a pass leaves outside of references comes from a part that lies in none. -/
theorem Becomes.exists_before (h : Becomes decider inItems t t')
    (hu : subtree? inItems t' a = some (stands, u')) (he : ¬Enclosed inItems t' a) :
    ∃ b u, subtree? inItems t b = some (stands, u) ∧ ¬Enclosed inItems t b ∧
      Becomes decider stands u u' := by
  induction a generalizing inItems t t' with
  | nil =>
    cases hu
    exact ⟨[], t, rfl, not_enclosed_nil _ _, h⟩
  | cons i a ih =>
    obtain ⟨c', hi, hu⟩ := Option.bind_eq_some_iff.mp hu
    have hr' := reference?_eq_none_of_not_enclosed he
    obtain ⟨hr, hrole, j, c, hj, hc⟩ := h.exists_child_before hr' hi
    rw [enclosed_cons_iff hr' hi, hrole] at he
    rw [hrole] at hu
    obtain ⟨b, u, hu, he, hbecomes⟩ := ih hc hu he
    refine ⟨j :: b, u, ?_, by rwa [enclosed_cons_iff hr hj], hbecomes⟩
    rwa [subtree?, hj]

/-- Each site that is left has what a decision has left in the place of its specifier. -/
theorem Becomes.exists_answer (h : Becomes decider inItems t t') (hc : CallsApart t)
    (hr : IsSite inItems t' a r) :
    ∃ site v action l l', (decider site v).run l = (.ok action, l') ∧
      ((action = .keep ∧ r.question? = some (site, v)) ∨
        ∃ w, action = .replace w ∧ r.question? = some (site, w)) := by
  obtain ⟨⟨stands, u', hu', hr⟩, he⟩ := isSite_iff.mp hr
  obtain ⟨b, u, hu, -, hbecomes⟩ := h.exists_before hu' he
  have hsome := reference?_eq_some_iff.mpr hr
  obtain ⟨q, site, v, action, l, l', hq, hv, answer, hleft⟩ :=
    hbecomes.reference?_before (hc.of_subtree? hu) hsome
  refine ⟨site, v, action, l, l', answer, hleft.imp ?_ ?_⟩
  · rintro ⟨hkeep, rfl⟩
    exact ⟨hkeep, Option.some.inj (hq.symm.trans hsome) ▸ hv⟩
  · rintro ⟨w, hreplace, -, hw⟩
    exact ⟨w, hreplace, hw⟩

/-- What is no reference and lies in none still stands outside of references. -/
theorem Becomes.exists_after (h : Becomes decider inItems t t') (hc : CallsApart t)
    (hu : subtree? inItems t a = some (stands, u)) (he : ¬Enclosed inItems t a)
    (hr : reference? stands u = none) :
    ∃ b u', subtree? inItems t' b = some (stands, u') ∧ ¬Enclosed inItems t' b ∧
      Becomes decider stands u u' := by
  induction a generalizing inItems t t' with
  | nil =>
    cases hu
    exact ⟨[], t', rfl, not_enclosed_nil _ _, h⟩
  | cons i a ih =>
    have ht := reference?_eq_none_of_not_enclosed he
    have ht' := h.reference?_eq_none hc ht
    obtain ⟨c, hi, hu⟩ := Option.bind_eq_some_iff.mp hu
    obtain ⟨hrole, hmatches⟩ := h.around ht
    rw [enclosed_cons_iff ht hi] at he
    have hcnone : reference? (t.role = .items) c = none := by
      cases a with
      | nil =>
        cases hu
        exact hr
      | cons => exact reference?_eq_none_of_not_enclosed he
    obtain ⟨c', hmem, hbecomes⟩ := hmatches.still_there c (List.mem_of_getElem? hi) hcnone
    obtain ⟨j, hj⟩ := List.mem_iff_getElem?.mp hmem
    obtain ⟨b, u', hu', he', hbecomes⟩ := ih hbecomes (hc.of_getElem? hi) hu he
    refine ⟨j :: b, u', ?_, by rwa [enclosed_cons_iff ht' hj, hrole], hbecomes⟩
    rwa [subtree?, hj, Option.bind_some, hrole]

/-- What lies in a reference that is left lay in a site with a specifier before, but for what holds
only a literal that is written. -/
theorem Becomes.exists_inside_before (h : Becomes decider inItems t t') (hc : CallsApart t)
    (hu : subtree? inItems t' a = some (stands, u)) (he : Enclosed inItems t' a) :
    (∃ b q site v c, IsSite inItems t b q ∧ q.question? = some (site, v) ∧ b <+: c ∧ b ≠ c ∧
        subtree? inItems t c = some (stands, u)) ∨
      (stands = false ∧ u.children.length ≤ 1) := by
  induction a generalizing inItems t t' with
  | nil => exact absurd he (not_enclosed_nil _ _)
  | cons i a ih =>
    cases hr' : reference? inItems t' with
    | some r =>
      obtain ⟨q, site, v, _, _, _, hr, hq, -, hleft⟩ := h.reference?_before hc hr'
      have hsite : IsSite inItems t [] q := isSite_nil.mpr (reference?_eq_some_iff.mp hr)
      rcases hleft with ⟨-, rfl⟩ | ⟨w, -, rfl, -⟩
      · exact .inl ⟨[], q, site, v, i :: a, hsite, hq, List.nil_prefix, nofun, hu⟩
      · exact (subtree?_of_respecify hr hc hu).imp_left fun hu ↦
          ⟨[], q, site, v, i :: a, hsite, hq, List.nil_prefix, nofun, hu⟩
    | none =>
      obtain ⟨c', hi, hu⟩ := Option.bind_eq_some_iff.mp hu
      obtain ⟨hr, hrole, j, c, hj, hbecomes⟩ := h.exists_child_before hr' hi
      rw [enclosed_cons_iff hr' hi, hrole] at he
      rw [hrole] at hu
      refine (ih hbecomes (hc.of_getElem? hj) hu he).imp_left ?_
      rintro ⟨b, q, site, v, d, hsite, hq, hbd, hne, hu⟩
      have hnone (q : Reference) : ¬IsReference inItems t q := fun hq ↦ by
        cases hr.symm.trans (reference?_eq_some_iff.mpr hq)
      refine ⟨j :: b, q, site, v, j :: d, isSite_cons.mpr ⟨hnone, c, hj, hsite⟩, hq,
        List.cons_prefix_cons.mpr ⟨rfl, hbd⟩, by simpa using hne, ?_⟩
      rwa [subtree?, hj]

/-- What lies in a reference that is left was there before, but for what holds only a literal that
is written. -/
theorem Becomes.exists_enclosed_before (h : Becomes decider inItems t t') (hc : CallsApart t)
    (hu : subtree? inItems t' a = some (stands, u)) (he : Enclosed inItems t' a) :
    (∃ b, subtree? inItems t b = some (stands, u) ∧ Enclosed inItems t b) ∨
      (stands = false ∧ u.children.length ≤ 1) := by
  refine (h.exists_inside_before hc hu he).imp_left ?_
  rintro ⟨b, q, -, -, c, hsite, -, hbc, hne, hu⟩
  exact ⟨c, hu, b, hbc, hne, q, hsite.1⟩

end Relocation.Pass
