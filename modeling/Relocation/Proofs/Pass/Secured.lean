import Relocation.Proofs.Ledger.History
import Relocation.Proofs.Ledger.Turns
import Relocation.Proofs.Pass.Failure

/-!
# Passes that take turns

A pass over a module is secured against others that take turns with it on the ledger: whether it
is the first to look a package up or not, it finds the same file, and what others write matters to
it only where it requires that very specifier. So it comes to what it comes to alone.
-/

namespace Relocation

open Ledger (Content Program)

namespace Ledger

/-- No two files are held for a package. -/
def Definite (c : Content) : Prop :=
  ∀ specifier f g, (specifier, f) ∈ c.2 → (specifier, g) ∈ c.2 → f = g

private theorem content_noting_le (l : Ledger) (x : Except Error String) :
    l.content ≤ (l.noting x).content := by
  cases x with
  | ok v => exact content_mark l v ▸ le_sup_left
  | error e => exact le_rfl

end Ledger

namespace Situation

variable {s : Situation} {site : Site} {specifier : String} {l l' : Ledger} {top : Content}
  {answer : Except Error Action}

/-! ### One decision -/

/-- A decision takes nothing away. -/
theorem Comes.content_le (h : s.Comes specifier l site answer l') : l.content ≤ l'.content :=
  Ledger.content_le_iff.mpr ⟨fun v hv ↦ (h.contains_iff v).mpr (.inl hv), fun r f hf ↦ by
    rw [h.target?_eq, hf, Option.some_or]⟩

private theorem secures_write {value : Except Error String}
    (htop : (l.noting value).content ≤ top) :
    Program.Secures top (value.map Action.replace) (l.noting value).content l.content
      (write value) := by
  cases value with
  | error e => exact .done le_rfl
  | ok v =>
    rw [Ledger.noting, Ledger.content_mark] at htop ⊢
    exact .mark (htop.1 (.inr rfl)) (.done le_rfl)

/-- A package is found to be the same file, whoever looks it up first. -/
theorem Finds.secures {file : Path} (h : s.Finds specifier l file l') (hdef : Ledger.Definite top)
    (htop : l'.content ≤ top) :
    Program.Secures top (s.wayToPackage file) l'.content l.content
      (s.relocatePackage specifier) := by
  unfold relocatePackage
  refine .target fun m hm hmtop ↦ ?_
  cases h with
  | remembered target =>
    have htarget : m.target? specifier = some file := (Ledger.content_le_iff.mp hm).2 _ _ target
    rw [htarget]
    exact .done hm
  | found target resolved =>
    have hcontent : (l.remember specifier file).content = l.content ⊔ (∅, {(specifier, file)}) :=
      Ledger.content_remember fun f hf ↦ by cases target.symm.trans hf
    rw [hcontent] at htop ⊢
    have hfile : (specifier, file) ∈ top.2 := htop.2 (.inr rfl)
    cases htarget : m.target? specifier with
    | some f =>
      obtain rfl : f = file := hdef specifier f file (hmtop.2 htarget) hfile
      exact .done (sup_le hm ⟨Set.empty_subset _, Set.singleton_subset_iff.mpr htarget⟩)
    | none =>
      simp only [resolved]
      exact .remember hfile (fun f hf ↦ hdef specifier f file hf hfile)
        (.done (sup_le_sup_right hm _))

/-- A decision is secured, if nobody writes a specifier that it may find written or not. -/
theorem Comes.secures (h : s.Comes specifier l site answer l') (hdef : Ledger.Definite top)
    (htop : l'.content ≤ top)
    (hfresh : site = .require → s.classOf specifier = .path → specifier ∈ top.1 →
      l.contains specifier) (hok : ∃ action, answer = .ok action) :
    Program.Secures top answer l'.content l.content (s.action site specifier) := by
  cases h with
  | dropped class_eq | nulled class_eq =>
    simp only [action, class_eq]
    exact .pure _ _
  | kept _ class_eq keeps =>
    simp only [action, class_eq, keeps, if_true]
    exact .pure _ _
  | known class_eq written =>
    simp only [action, class_eq]
    refine .contains fun m hm _ ↦ ?_
    rw [(Ledger.content_le_iff.mp hm).1 _ written, if_pos rfl]
    exact .done hm
  | located _ class_eq unwritten =>
    cases site with
    | declaration =>
      simp only [action, class_eq]
      exact .pure _ _
    | require =>
      simp only [action, class_eq]
      refine .contains fun m hm hmtop ↦ ?_
      have hnot : m.contains specifier = false := by
        refine Bool.eq_false_iff.mpr fun hw ↦ ?_
        have := hfresh rfl class_eq (hmtop.1 hw)
        rw [unwritten rfl] at this
        cases this
      rw [hnot, if_neg Bool.false_ne_true]
      exact .done hm
  | directed _ class_eq =>
    have hwrite := secures_write htop
    rcases class_eq with class_eq | class_eq <;>
      simpa [action, wayToFramework, class_eq] using hwrite
  | copied _ class_eq copies finds =>
    simp only [action, class_eq, copies, Bool.false_eq_true, if_false]
    exact (finds.secures hdef ((Ledger.content_noting_le _ _).trans htop)).bind (secures_write htop)
  | missing =>
    obtain ⟨action, hok⟩ := hok
    cases hok

/-! ### What is remembered -/

/-- Files are remembered from before, or found for a package that was not. -/
structure RecallsFrom (s : Situation) (before l : Ledger) : Prop where
  content_le : before.content ≤ l.content
  recalls : l.Recalls fun r f ↦ before.target? r = some f ∨
    (before.target? r = none ∧ s.resolver.resolvePackage s.tree r s.project.searchPaths = .ok f)

private theorem RecallsFrom.refl (s : Situation) (l : Ledger) : s.RecallsFrom l l :=
  ⟨le_rfl, fun _ _ h ↦ .inl h⟩

private theorem RecallsFrom.comes {before : Ledger} (h : s.RecallsFrom before l)
    (hc : s.Comes specifier l site answer l') : s.RecallsFrom before l' := by
  refine ⟨h.content_le.trans hc.content_le, fun r f hf ↦ ?_⟩
  rw [hc.target?_eq] at hf
  cases ht : l.target? r with
  | some g =>
    rw [ht, Option.some_or] at hf
    exact Option.some.inj hf ▸ h.recalls r g ht
  | none =>
    rw [ht, Option.none_or] at hf
    have hbefore : before.target? r = none := Option.eq_none_iff_forall_ne_some.mpr fun g hg ↦ by
      cases ht.symm.trans ((Ledger.content_le_iff.mp h.content_le).2 r g hg)
    exact .inr ⟨hbefore, Ledger.Event.resolved_of_found? hf⟩

end Situation

namespace Pass

open Syntax (Dialect)

variable {κ : Type} [Dialect κ] {α β : Type} {base top : Content} {decider : Decider}

/-! ### A whole pass -/

/-- A step takes nothing from the ledger. Whatever it comes to without an error on a ledger that
holds `base`, it comes to whatever others add below `top`. -/
def Secured (base top : Content) (x : Step α) : Prop :=
  ∀ found l a found' l', Leads x found l a found' l' → l.content ≤ l'.content ∧
    (found'.failure = none → found.failure = none ∧
      (base ≤ l.content → l'.content ≤ top →
        Program.Secures top (a, found') l'.content l.content (x.run found)))

private theorem composes_secured (base top : Content) : Composes (Secured base top) where
  pure a found l b found' l' h := by
    obtain ⟨rfl, rfl, rfl⟩ := leads_pure.mp h
    exact ⟨le_rfl, fun hf ↦ ⟨hf, fun _ _ ↦ .pure _ _⟩⟩
  bind hx hf found l b found' l' h := by
    obtain ⟨a, found₁, l₁, h₁, h₂⟩ := leads_bind.mp h
    obtain ⟨hle₁, hx⟩ := hx _ _ _ _ _ h₁
    obtain ⟨hle₂, hf⟩ := hf a _ _ _ _ _ h₂
    refine ⟨hle₁.trans hle₂, fun hfound' ↦ ?_⟩
    obtain ⟨hfound₁, hf⟩ := hf hfound'
    obtain ⟨hfound, hx⟩ := hx hfound₁
    refine ⟨hfound, fun hbase htop ↦ ?_⟩
    rw [StateT.run_bind]
    exact (hx hbase (hle₂.trans htop)).bind (hf (hbase.trans hle₁) htop)

private theorem secured_report (span : Syntax.Span) : Secured base top (report span) := by
  intro found l a found' l' h
  obtain ⟨b, hb⟩ : ∃ b, (report span).run found = pure b := by
    simp only [report, StateT.run]
    split <;> exact ⟨_, rfl⟩
  refine ⟨?_, fun hf ↦ ⟨(leads_report h hf).1, fun _ _ ↦ ?_⟩⟩
  · rw [Leads, hb] at h
    cases h
    exact le_rfl
  · rw [Leads, hb] at h
    rw [hb]
    cases h
    exact .pure _ _

private theorem secured_decideOn {s : Situation} (hdef : Ledger.Definite top) {site : Site}
    {specifier : String} (hfresh : site = .require → s.classOf specifier = .path →
      specifier ∈ top.1 → specifier ∈ base.1) :
    Secured base top (decideOn s.action site specifier) := by
  intro found l a found' l' h
  cases hfound : found.failure with
  | some e =>
    obtain ⟨-, rfl, rfl⟩ := (idles_decideOn site specifier).eq_of_leads h (by simp [hfound])
    exact ⟨le_rfl, fun hf ↦ by cases hfound.symm.trans hf⟩
  | none =>
    rw [Leads, run_decideOn hfound, Program.run_bind] at h
    rw [run_decideOn hfound]
    generalize hrun : (s.action site specifier).run l = answered at h
    obtain ⟨answer, m⟩ := answered
    have hcomes := Situation.comes_of_run hrun
    cases answer with
    | error e =>
      cases h
      exact ⟨hcomes.content_le, fun hf ↦ by cases hf⟩
    | ok action =>
      cases h
      refine ⟨hcomes.content_le, fun _ ↦ ⟨rfl, fun hbase htop ↦ ?_⟩⟩
      refine (hcomes.secures hdef htop (fun hs hc hv ↦ ?_) ⟨_, rfl⟩).bind (.pure _ _)
      exact hbase.1 (hfresh hs hc hv)

/-- Alone, a pass without an error remembers files from before or finds them. -/
theorem recallsFrom_relocate {s : Situation} {t : Syntax.Tree κ} {l : Ledger}
    (hf : ((relocate s.action t).run l).1.findings.failure = none) :
    s.RecallsFrom l ((relocate s.action t).run l).2 := by
  obtain ⟨ds, hds, -⟩ := covers_visit (leads_relocate s.action t l) hf
  exact hds.decided.preserves (fun hrun h ↦ h.comes (Situation.comes_of_run hrun)) (.refl s l)

/-- A pass is secured if others write no local specifier that it requires. -/
theorem secures_relocate {s : Situation} {t : Syntax.Tree κ} {l : Ledger}
    (hdef : Ledger.Definite top)
    (hfresh : ∀ a span v, IsSite false t a (.call span (.specifier v)) → s.classOf v = .path →
      v ∈ top.1 → l.contains v)
    (hf : ((relocate s.action t).run l).1.findings.failure = none)
    (htop : ((relocate s.action t).run l).2.content ≤ top) :
    Program.Secures top ((relocate s.action t).run l).1
      ((relocate s.action t).run l).2.content l.content (relocate s.action t) := by
  have hasks : Asks (fun site v ↦ site = .require → s.classOf v = .path → v ∈ top.1 →
      v ∈ l.content.1) (sites false t) := by
    rintro ⟨a, r⟩ hr site v hq rfl hclass hv
    match r, hq with
    | .call span (.specifier v), rfl => exact hfresh a span v (mem_sites_iff.mp hr) hclass hv
  have hsecured := (composes_secured l.content top).visit
    ⟨fun _ _ hfresh ↦ secured_decideOn hdef hfresh, secured_report⟩ hasks
  rw [relocate, Program.run_bind] at hf htop ⊢
  exact ((hsecured {} l _ _ _ rfl).2 hf |>.2 le_rfl htop).bind (.pure _ _)

end Pass

end Relocation
