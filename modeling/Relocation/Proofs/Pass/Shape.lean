import Mathlib.Data.List.Forall2
import Relocation.Proofs.Pass.Rest

/-!
# Shapes that a visit leaves

A visit leaves all trees what they are, but for calls. So a form that is known by the labels of a
tree and of what hangs below it, without a call among them, is there after a visit exactly if it
was there before.
-/

namespace Relocation.Pass

open Syntax (Dialect LawfulDialect)

variable {κ : Type} [Dialect κ] {decider : Decider} {t u : Syntax.Tree κ}
  {ts us : List (Syntax.Tree κ)} {found found' : Findings} {l l' : Ledger}

/-- A pass makes one of two trees of the other. -/
def Alike (decider : Decider) (t u : Syntax.Tree κ) : Prop :=
  (∃ found l found' l', Leads (visit decider t) found l u found' l') ∨
    ∃ found l found' l', Leads (visit decider u) found l t found' l'

/-- Of two trees that a pass makes of each other, either may come first. -/
theorem Alike.symm (h : Alike decider t u) : Alike decider u t := Or.symm h

private theorem alike_of_leads_visitAll (h : Leads (visitAll decider ts) found l us found' l') :
    List.Forall₂ (Alike decider) ts us := by
  induction ts generalizing found l us with
  | nil =>
    obtain ⟨rfl, -, -⟩ := leads_pure.mp h
    exact .nil
  | cons t ts ih =>
    simp only [visitAll, leads_bind, leads_pure] at h
    obtain ⟨u, _, _, ht, us, _, _, hts, rfl, rfl, rfl⟩ := h
    exact .cons (.inl ⟨_, _, _, _, ht⟩) (ih hts)

/-- A visit turns calls into calls or `null`, and leaves all other trees what they are. -/
theorem kind_of_leads (h : Leads (visit decider t) found l u found' l') :
    (t.role = .call ∧ (u.role = .call ∨ u.kind = Dialect.null)) ∨
      (u.kind = t.kind ∧
        (t.role ≠ .items → List.Forall₂ (Alike decider) t.children u.children)) := by
  cases visited_of_leads h with
  | @call _ _ _ _ action _ _ role =>
    refine .inl ⟨role, ?_⟩
    cases action with
    | keep => exact .inl role
    | replace w => exact .inl role
    | remove => exact .inr rfl
    | replaceWithNull => exact .inr rfl
  | items role => exact .inr ⟨rfl, fun hi ↦ absurd role hi⟩
  | node _ _ leads => exact .inr ⟨rfl, fun _ ↦ alike_of_leads_visitAll leads⟩

namespace Alike

/-- What is no call, no list of module items and not `null` stays what it is around its
children. -/
theorem node (h : Alike decider t u) (hcall : t.role ≠ .call) (hitems : t.role ≠ .items)
    (hnull : t.kind ≠ Dialect.null) :
    u.kind = t.kind ∧ List.Forall₂ (Alike decider) t.children u.children := by
  rcases h with ⟨_, _, _, _, h⟩ | ⟨_, _, _, _, h⟩
  · rcases kind_of_leads h with ⟨role, -⟩ | ⟨hkind, hchildren⟩
    · exact absurd role hcall
    · exact ⟨hkind, hchildren hitems⟩
  · rcases kind_of_leads h with ⟨-, role | null⟩ | ⟨hkind, hchildren⟩
    · exact absurd role hcall
    · exact absurd null hnull
    · have hrole : u.role ≠ .items := by rwa [Syntax.Tree.role, ← hkind]
      exact ⟨hkind.symm, .flip ((hchildren hrole).imp fun _ _ ↦ symm)⟩

/-- A role that no visit takes away or gives. -/
def Lasting : Syntax.Role → Bool
  | .call | .items | .plain => false
  | _ => true

/-- What has a lasting role keeps it around its children. -/
theorem role_eq [LawfulDialect κ] (h : Alike decider t u) {role : Syntax.Role}
    (hrole : t.role = role) (hlasting : Lasting role) :
    u.role = role ∧ List.Forall₂ (Alike decider) t.children u.children := by
  subst hrole
  have hnull : t.kind ≠ Dialect.null := by
    intro hnull
    have hplain : t.role = .plain := by rw [Syntax.Tree.role, hnull, LawfulDialect.role_null]
    rw [hplain] at hlasting
    cases hlasting
  have hcall : t.role ≠ .call := fun hcall ↦ by simp [hcall, Lasting] at hlasting
  have hitems : t.role ≠ .items := fun hitems ↦ by simp [hitems, Lasting] at hlasting
  obtain ⟨hkind, hchildren⟩ := h.node hcall hitems hnull
  exact ⟨by rw [Syntax.Tree.role, hkind, Syntax.Tree.role], hchildren⟩

mutual

/-- A literal stays what it is, inside any number of parentheses. -/
theorem requirement_eq [LawfulDialect κ] {t u : Syntax.Tree κ} (h : Alike decider t u) {v : String}
    (hv : requirement t = .specifier v) : requirement u = .specifier v := by
  cases t with
  | node kind span children =>
    obtain ⟨kind', span', us⟩ := u
    cases hk : Dialect.role kind with
    | text w =>
      obtain ⟨hk', -⟩ := h.role_eq hk rfl
      have hk' : Dialect.role kind' = .text w := hk'
      simpa only [requirement, hk, hk'] using hv
    | parens =>
      obtain ⟨hk', hchildren⟩ := h.role_eq hk rfl
      have hk' : Dialect.role kind' = .parens := hk'
      simp only [requirement, hk] at hv
      simpa only [requirement, hk', Syntax.Tree.children_node] using
        firstRequirement_eq hchildren hv
    | _ => simp [requirement, hk] at hv

/-- So does the first of trees that stand beside each other. -/
theorem firstRequirement_eq [LawfulDialect κ] {ts us : List (Syntax.Tree κ)}
    (h : List.Forall₂ (Alike decider) ts us) {v : String}
    (hv : firstRequirement ts = .specifier v) : firstRequirement us = .specifier v := by
  cases ts with
  | nil => cases hv
  | cons t ts =>
    cases h with
    | cons ht _ => exact requirement_eq ht hv

end

end Alike

end Relocation.Pass
