import Mathlib.Data.List.Basic
import Mathlib.Data.Set.Lattice
import Mathlib.Order.ConditionallyCompleteLattice.Basic
import Mathlib.Order.GameAdd
import Relocation.Ledger.Program

/-!
# Computations that take turns

Several computations share a ledger: one of them at a time takes a step, in any order. A
computation is secured if it comes to its result whatever the others do, as long as they only add
to the ledger and add nothing beyond a bound. If all of them are, each comes to its result in
every order, and the ledger is left with what they have added together. Whatever the order, the
turns come to an end.
-/

namespace Relocation.Ledger

open Relation (ReflTransGen)

/-! ### What a ledger holds -/

/-- Specifiers that are written, and packages with the files that are remembered for them. -/
abbrev Content := Set String × Set (String × Path)

/-- What a ledger holds. -/
def content (l : Ledger) : Content := ({v | l.contains v}, {x | l.target? x.1 = some x.2})

variable {l m : Ledger}

/-- A ledger holds no more than another one if all its specifiers are written there and all its
files are remembered there. -/
theorem content_le_iff :
    l.content ≤ m.content ↔ (∀ v, l.contains v → m.contains v) ∧
      ∀ specifier file, l.target? specifier = some file → m.target? specifier = some file :=
  and_congr_right fun _ ↦ ⟨fun h s f hf ↦ @h (s, f) hf, fun h x hx ↦ h x.1 x.2 hx⟩

/-- Marking a specifier adds it to what is held. -/
@[simp] theorem content_mark (l : Ledger) (v : String) :
    (l.mark v).content = l.content ⊔ ({v}, ∅) := by
  refine Prod.ext (Set.ext fun s ↦ ?_) (Set.ext fun x ↦ ?_)
  · simp [content]
  · simp [content]

/-- To remember a file that is remembered or for which none is adds it. -/
theorem content_remember {specifier : String} {file : Path}
    (h : ∀ f, l.target? specifier = some f → f = file) :
    (l.remember specifier file).content = l.content ⊔ (∅, {(specifier, file)}) := by
  refine Prod.ext (Set.ext fun s ↦ ?_) (Set.ext fun ⟨s, f⟩ ↦ ?_)
  · simp [content]
  · by_cases hs : s = specifier
    · subst hs
      simp only [content, Prod.snd_sup, Set.sup_eq_union, Set.mem_union, Set.mem_ofPred_eq,
        Set.mem_singleton_iff, Prod.mk.injEq, true_and, target?_remember_self, Option.some.injEq]
      exact ⟨fun hf ↦ .inr hf.symm, fun hf ↦ hf.elim (fun hf ↦ (h f hf).symm) Eq.symm⟩
    · simp [content, target?_remember_of_ne l file hs, hs]

/-! ### Steps that nobody can disturb -/

namespace Program

variable {α β : Type} {top goal c d : Content} {a : α}

/-- The computation comes to `a` and then at least `goal` is held, if at least `c` is held now and
others add nothing beyond `top`; nor does the computation, and it takes nothing away. -/
inductive Secures (top : Content) (a : α) (goal : Content) : Content → Program α → Prop where
  | done {c : Content} (reached : goal ≤ c) : Secures top a goal c (.done a)
  | step {c : Content} {p : Program α} (unfinished : ∀ b, p ≠ .done b)
      (keeps : ∀ m q n, c ≤ m.content → m.content ≤ top → p.step m = some (q, n) →
        m.content ≤ n.content ∧ n.content ≤ top)
      (next : ∀ m q n, c ≤ m.content → m.content ≤ top → p.step m = some (q, n) →
        Secures top a goal n.content q) : Secures top a goal c p

namespace Secures

variable {p : Program α}

/-- More may be held. -/
theorem mono (h : Secures top a goal c p) (hcd : c ≤ d) : Secures top a goal d p := by
  cases h with
  | done reached => exact .done (reached.trans hcd)
  | step unfinished keeps next =>
    exact .step unfinished (fun m q n hm ↦ keeps m q n (hcd.trans hm))
      fun m q n hm ↦ next m q n (hcd.trans hm)

/-- A computation that is over secures what is held already. -/
theorem pure (a : α) (c : Content) : Secures top a c c (Pure.pure a) := .done le_rfl

/-- A computation goes on from where the one before it comes to. -/
theorem bind {f : α → Program β} {b : β} {goal' : Content} (hp : Secures top a goal c p)
    (hf : Secures top b goal' goal (f a)) : Secures top b goal' c (p >>= f) := by
  induction hp with
  | done reached => exact hf.mono reached
  | @step c p unfinished keeps _ ih =>
    -- the first computation takes the step
    have hstep {m n : Ledger} {r : Program β} (h : (p >>= f).step m = some (r, n)) :
        ∃ q, p.step m = some (q, n) ∧ r = q >>= f := by
      cases p with
      | done a => exact absurd rfl (unfinished a)
      | _ =>
        cases h
        exact ⟨_, rfl, rfl⟩
    refine .step (fun b hb ↦ ?_) (fun m r n hm htop h ↦ ?_) fun m r n hm htop h ↦ ?_
    · cases p with
      | done a => exact absurd rfl (unfinished a)
      | _ => cases hb
    · obtain ⟨q, hq, -⟩ := hstep h
      exact keeps m q n hm htop hq
    · obtain ⟨q, hq, rfl⟩ := hstep h
      exact ih m q n hm htop hq

/-- A question secures what is secured behind each answer that a ledger between the bounds can
give. -/
private theorem of_asks {p : Program α} {next : Ledger → Program α} (hp : ∀ b, p ≠ .done b)
    (hstep : ∀ m q n, p.step m = some (q, n) → q = next m ∧ n = m)
    (h : ∀ m : Ledger, c ≤ m.content → m.content ≤ top → Secures top a goal m.content (next m)) :
    Secures top a goal c p := by
  refine .step hp (fun m q n _ htop hs ↦ ?_) fun m q n hm htop hs ↦ ?_
  · obtain ⟨-, rfl⟩ := hstep m q n hs
    exact ⟨le_rfl, htop⟩
  · obtain ⟨rfl, rfl⟩ := hstep m q n hs
    exact h n hm htop

/-- Asking for a file secures what is secured behind each answer that a ledger between the bounds
can give. -/
theorem target {specifier : String} {next : Option Path → Program α}
    (h : ∀ m : Ledger, c ≤ m.content → m.content ≤ top →
      Secures top a goal m.content (next (m.target? specifier))) :
    Secures top a goal c (.target specifier next) := by
  refine of_asks (fun _ hd ↦ by cases hd) (fun m q n hs ↦ ?_) h
  cases hs
  exact ⟨rfl, rfl⟩

/-- Asking for a specifier secures what is secured behind each answer that a ledger between the
bounds can give. -/
theorem contains {specifier : String} {next : Bool → Program α}
    (h : ∀ m : Ledger, c ≤ m.content → m.content ≤ top →
      Secures top a goal m.content (next (m.contains specifier))) :
    Secures top a goal c (.contains specifier next) := by
  refine of_asks (fun _ hd ↦ by cases hd) (fun m q n hs ↦ ?_) h
  cases hs
  exact ⟨rfl, rfl⟩

/-- A note of what the bound allows secures what is secured once it is held. -/
private theorem of_notes {p next : Program α} {note : Ledger → Ledger} {added : Content}
    (hp : ∀ b, p ≠ .done b) (hstep : ∀ m q n, p.step m = some (q, n) → q = next ∧ n = note m)
    (hnote : ∀ m, m.content ≤ top → (note m).content = m.content ⊔ added) (hle : added ≤ top)
    (h : Secures top a goal (c ⊔ added) next) : Secures top a goal c p := by
  refine .step hp (fun m q n _ htop hs ↦ ?_) fun m q n hm htop hs ↦ ?_
  · obtain ⟨-, rfl⟩ := hstep m q n hs
    rw [hnote m htop]
    exact ⟨le_sup_left, sup_le htop hle⟩
  · obtain ⟨rfl, rfl⟩ := hstep m q n hs
    rw [hnote m htop]
    exact h.mono (sup_le_sup_right hm _)

/-- Marking a specifier that the bound allows secures what is secured once it is held. -/
theorem mark {v : String} {next : Program α} (hv : v ∈ top.1)
    (h : Secures top a goal (c ⊔ ({v}, ∅)) next) : Secures top a goal c (.mark v next) := by
  have hle : (({v}, ∅) : Content) ≤ top :=
    ⟨Set.singleton_subset_iff.mpr hv, Set.empty_subset _⟩
  refine of_notes (fun _ hd ↦ by cases hd) (fun m q n hs ↦ ?_)
    (fun m _ ↦ content_mark m v) hle h
  cases hs
  exact ⟨rfl, rfl⟩

/-- Remembering a file that the bound allows, as the only one for its specifier, secures what is
secured once it is held. -/
theorem remember {specifier : String} {file : Path} {next : Program α}
    (hfile : (specifier, file) ∈ top.2) (hunique : ∀ f, (specifier, f) ∈ top.2 → f = file)
    (h : Secures top a goal (c ⊔ (∅, {(specifier, file)})) next) :
    Secures top a goal c (.remember specifier file next) := by
  have hle : ((∅, {(specifier, file)}) : Content) ≤ top :=
    ⟨Set.empty_subset _, Set.singleton_subset_iff.mpr hfile⟩
  have hnote (m : Ledger) (htop : m.content ≤ top) :
      (m.remember specifier file).content = m.content ⊔ (∅, {(specifier, file)}) :=
    content_remember fun f hf ↦ hunique f (htop.2 hf)
  refine of_notes (fun _ hd ↦ by cases hd) (fun m q n hs ↦ ?_) hnote hle h
  cases hs
  exact ⟨rfl, rfl⟩

end Secures

/-! ### Turns -/

/-- One of several computations takes a step on the ledger that they share. -/
inductive Turn : List (Program α) × Ledger → List (Program α) × Ledger → Prop where
  | take {ps : List (Program α)} {p q : Program α} {l m : Ledger} (i : Nat) (here : ps[i]? = some p)
      (step : p.step l = some (q, m)) : Turn (ps, l) (ps.set i q, m)

/-- Several computations take turns, in some order. -/
abbrev Turns (ps : List (Program α)) (l : Ledger) (qs : List (Program α)) (m : Ledger) : Prop :=
  ReflTransGen Turn (ps, l) (qs, m)

/-- Each of several computations is secured on a ledger, with its result and what it leaves. -/
structure AllSecured (top : Content) (results : List (α × Content)) (ps : List (Program α))
    (l : Ledger) : Prop where
  within : l.content ≤ top
  length : ps.length = results.length
  secures : ∀ (i : Nat) (p : Program α) (x : α × Content), ps[i]? = some p →
    results[i]? = some x → Secures top x.1 x.2 l.content p

/-- A turn takes nothing away and leaves all computations secured. -/
theorem AllSecured.turn {results : List (α × Content)} {ps qs : List (Program α)}
    (h : AllSecured top results ps l) (ht : Turn (ps, l) (qs, m)) :
    l.content ≤ m.content ∧ AllSecured top results qs m := by
  obtain @⟨_, p, q, _, _, i, here, step⟩ := ht
  obtain ⟨x, hx⟩ : ∃ x, results[i]? = some x :=
    ⟨_, List.getElem?_eq_getElem (h.length ▸ (List.getElem?_eq_some_iff.mp here).1)⟩
  cases h.secures i p x here hx with
  | done => cases step
  | step _ keeps next =>
    obtain ⟨hle, htop⟩ := keeps l q m le_rfl h.within step
    refine ⟨hle, htop, by rw [List.length_set, h.length], fun j r y hj hy ↦ ?_⟩
    by_cases hij : i = j
    · subst hij
      obtain rfl := Option.some.inj (hx.symm.trans hy)
      rw [List.getElem?_set_self (List.getElem?_eq_some_iff.mp here).1] at hj
      obtain rfl := Option.some.inj hj
      exact next l q m le_rfl h.within step
    · rw [List.getElem?_set_ne hij] at hj
      exact (h.secures j r y hj hy).mono hle

/-- As long as a computation is not done, it can take a step. -/
theorem exists_step {p : Program α} (h : ∀ a, p ≠ .done a) (l : Ledger) :
    ∃ q m, p.step l = some (q, m) := by
  cases p with
  | done a => exact absurd rfl (h a)
  | _ => exact ⟨_, _, rfl⟩

/-- In every order, secured computations come to their results until none can take a step, and the
ledger is left with all that it held and that they leave. -/
theorem AllSecured.turns {results : List (α × Content)} {ps qs : List (Program α)}
    (h : AllSecured top results ps l) (ht : Turns ps l qs m) (hend : ∀ x, ¬Turn (qs, m) x) :
    qs = results.map (fun x ↦ .done x.1) ∧ l.content ≤ m.content ∧ m.content ≤ top ∧
      ∀ x ∈ results, x.2 ≤ m.content := by
  have hrun : ∀ s : List (Program α) × Ledger, ReflTransGen Turn (ps, l) s →
      l.content ≤ s.2.content ∧ AllSecured top results s.1 s.2 := by
    intro s hs
    induction hs with
    | refl => exact ⟨le_rfl, h⟩
    | tail _ hturn ih =>
      obtain ⟨hle, hsecured⟩ := ih.2.turn hturn
      exact ⟨ih.1.trans hle, hsecured⟩
  obtain ⟨hle, hsecured⟩ := hrun _ ht
  have hdone {i : Nat} {q : Program α} {x : α × Content} (hq : qs[i]? = some q)
      (hx : results[i]? = some x) : q = .done x.1 ∧ x.2 ≤ m.content := by
    cases hsecured.secures i q x hq hx with
    | done reached => exact ⟨rfl, reached⟩
    | step unfinished =>
      obtain ⟨r, n, hstep⟩ := exists_step unfinished m
      exact absurd (.take i hq hstep) (hend _)
  have hlength : qs.length = results.length := hsecured.length
  refine ⟨List.ext_getElem (by simpa using hlength) fun i hi hi' ↦ ?_, hle, hsecured.within,
    fun x hx ↦ ?_⟩
  · rw [List.getElem_map]
    exact (hdone (List.getElem?_eq_getElem hi) (List.getElem?_eq_getElem (hlength ▸ hi))).1
  · obtain ⟨i, hi, rfl⟩ := List.mem_iff_getElem.mp hx
    exact (hdone (List.getElem?_eq_getElem (hlength ▸ hi)) (List.getElem?_eq_getElem hi)).2

/-! ### Turns come to an end -/

/-- One program is what a step leaves of another. -/
def Rest (q p : Program α) : Prop := ∃ l m, p.step l = some (q, m)

private theorem acc_rest (p : Program α) : Acc Rest p := by
  induction p with
  | done a => exact ⟨_, fun _ ⟨_, _, h⟩ ↦ by cases h⟩
  | target s next ih | contains s next ih =>
    refine ⟨_, fun q ⟨l, m, h⟩ ↦ ?_⟩
    cases h
    exact ih _
  | remember s file next ih | mark s next ih =>
    refine ⟨_, fun q ⟨l, m, h⟩ ↦ ?_⟩
    cases h
    exact ih

/-- One list of programs is what a step of one of them leaves of another. -/
def RestOf (qs ps : List (Program α)) : Prop :=
  ∃ i p q, ps[i]? = some p ∧ Rest q p ∧ qs = ps.set i q

private theorem acc_restOf (ps : List (Program α)) : Acc RestOf ps := by
  induction ps with
  | nil => exact ⟨_, fun _ ⟨_, _, _, h, _⟩ ↦ by cases h⟩
  | cons p ps ih =>
    -- a step is taken by the first program or by one of the others
    have hcons (x : Program α × List (Program α)) (hx : Acc (Prod.GameAdd Rest RestOf) x) :
        Acc RestOf (x.1 :: x.2) := by
      induction hx with
      | intro x _ ih =>
        refine ⟨_, ?_⟩
        rintro _ ⟨i, p, q, hp, hq, rfl⟩
        cases i with
        | zero =>
          obtain rfl := Option.some.inj hp
          exact ih (q, x.2) (.fst hq)
        | succ i => exact ih (x.1, x.2.set i q) (.snd ⟨i, p, q, hp, hq, rfl⟩)
    exact hcons (p, ps) ((acc_rest p).prod_gameAdd ih)

/-- Nobody can take turns for ever. -/
theorem acc_turn (ps : List (Program α)) (l : Ledger) : Acc (Function.swap Turn) (ps, l) := by
  have hsub : Subrelation (Function.swap Turn) (InvImage (RestOf (α := α)) Prod.fst) := by
    rintro _ _ ⟨i, here, step⟩
    exact ⟨i, _, _, here, ⟨_, _, step⟩, rfl⟩
  exact hsub.accessible (InvImage.accessible _ (acc_restOf ps))

/-! ### One after the other -/

/-- One of several computations can take all its steps at once. -/
theorem turns_run (before after : List (Program α)) (p : Program α) (l : Ledger) :
    Turns (before ++ p :: after) l (before ++ done (p.run l).1 :: after) (p.run l).2 := by
  have hstep {p q : Program α} {l m : Ledger} (h : p.step l = some (q, m)) :
      Turn (before ++ p :: after, l) (before ++ q :: after, m) := by
    have here : (before ++ p :: after)[before.length]? = some p := by simp
    have hturn := Turn.take before.length here h
    rwa [List.set_append_right _ _ le_rfl, Nat.sub_self, List.set_cons_zero] at hturn
  induction p generalizing l with
  | done a => exact .refl
  | target s next ih => exact .head (hstep rfl) (ih _ l)
  | remember s file next ih => exact .head (hstep rfl) (ih _)
  | contains s next ih => exact .head (hstep rfl) (ih _ l)
  | mark s next ih => exact .head (hstep rfl) (ih _)

/-- No turn is left once all are done. -/
theorem not_turn_of_done (as : List α) (l : Ledger) (x : List (Program α) × Ledger) :
    ¬Turn (as.map done, l) x := by
  rintro ⟨i, here, step⟩
  obtain ⟨a, -, rfl⟩ := Option.map_eq_some_iff.mp (List.getElem?_map ▸ here)
  cases step

/-- Computations one after the other take turns in one order. -/
theorem turns_mapM (f : β → Program α) (xs : List β) (as : List α) (l : Ledger) :
    Turns (as.map done ++ xs.map f) l ((as ++ ((xs.mapM f).run l).1).map done)
      ((xs.mapM f).run l).2 := by
  induction xs generalizing as l with
  | nil => simpa using ReflTransGen.refl
  | cons x xs ih =>
    have hrest := ih (as ++ [((f x).run l).1]) ((f x).run l).2
    have hhead := turns_run (as.map done) (xs.map f) (f x) l
    simp only [List.mapM_cons, run_bind, run_pure, List.map_cons, List.map_append, List.map_nil,
      List.append_assoc, List.cons_append, List.nil_append] at hhead hrest ⊢
    exact hhead.trans hrest

end Program

end Relocation.Ledger
