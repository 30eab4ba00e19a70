import Relocation.Proofs.Pass.Reference

/-!
# Edits of a tree

An edit puts a literal or `null` in the place of the tree at an address, or drops that tree from
the list that it stands in. Everything that no edit is addressed to stays as it is. What a pass
does to a tree once its sites are decided is one edit for each site that is not kept.
-/

namespace Relocation.Pass

open Syntax (Dialect Span)

variable {κ : Type} [Dialect κ]

/-- What is done to the tree at an address. -/
inductive Edit where
  /-- A string literal over the same text takes its place. -/
  | literal (value : String)
  /-- The literal `null` over the same text takes its place. -/
  | null
  /-- It is dropped from the list that it stands in. -/
  | drop
  deriving DecidableEq

mutual

/-- A tree after edits, given by address. -/
def edit (edits : Address → Option Edit) : Syntax.Tree κ → List (Syntax.Tree κ)
  | .node kind span children =>
    match edits [] with
    | some (.literal value) => [Syntax.Tree.literal value span]
    | some .null => [Syntax.Tree.null span]
    | some .drop => []
    | none => [.node kind span (editAll edits 0 children)]

/-- Trees that stand beside each other after edits, the first one as the child of this index. -/
def editAll (edits : Address → Option Edit) (i : Nat) : List (Syntax.Tree κ) → List (Syntax.Tree κ)
  | [] => []
  | t :: ts => edit (fun a ↦ edits (i :: a)) t ++ editAll edits (i + 1) ts

end

/-- What was decided about a reference. -/
structure Decision where
  address : Address
  reference : Reference
  action : Action

namespace Decision

/-- The reference with its address. -/
def site (d : Decision) : Address × Reference := (d.address, d.reference)

/-- The decision about the same reference as seen from one level above. -/
def below (i : Nat) (d : Decision) : Decision := { d with address := i :: d.address }

/-- The edit that a decision calls for. A new specifier takes the place of a declaration's source
or of a call's argument. -/
def edit? (d : Decision) : Option (Address × Edit) :=
  match d.action, d.reference with
  | .keep, _ => none
  | .replace value, .declaration _ => some (d.address ++ [0], .literal value)
  | .replace value, .call _ _ => some (d.address ++ [1, 0, 0], .literal value)
  | .remove, .declaration _ | .replaceWithNull, .declaration _ => some (d.address, .drop)
  | .remove, .call _ _ | .replaceWithNull, .call _ _ => some (d.address, .null)

/-- Below a child, the site of a decision is at the child's place and then where it was. -/
@[simp] theorem site_below (i : Nat) (d : Decision) :
    (d.below i).site = Prod.map (i :: ·) id d.site := rfl

/-- Below a child, the edit of a decision is at the child's place and then where it was. -/
@[simp] theorem edit?_below (i : Nat) (d : Decision) :
    (d.below i).edit? = d.edit?.map (Prod.map (i :: ·) id) := by
  obtain ⟨a, r, action⟩ := d
  cases action <;> cases r <;> rfl

end Decision

/-- The edits that decisions call for. -/
def editsOf (ds : List Decision) (a : Address) : Option Edit :=
  (ds.filterMap Decision.edit?).lookup a

/-! ### Where nothing is edited -/

mutual

/-- Without edits a tree stays as it is. -/
theorem edit_none (t : Syntax.Tree κ) : edit (fun _ ↦ none) t = [t] := by
  cases t with
  | node kind span children => simp only [edit, editAll_none]

private theorem editAll_none (i : Nat) (ts : List (Syntax.Tree κ)) :
    editAll (fun _ ↦ none) i ts = ts := by
  cases ts with
  | nil => rfl
  | cons t ts => simp only [editAll, edit_none, editAll_none, List.singleton_append]

end

/-- Trees depend on the edits from their own index on. -/
theorem editAll_congr {e f : Address → Option Edit} {i : Nat}
    (h : ∀ j a, i ≤ j → e (j :: a) = f (j :: a)) (ts : List (Syntax.Tree κ)) :
    editAll e i ts = editAll f i ts := by
  induction ts generalizing i with
  | nil => rfl
  | cons t ts ih =>
    have ht : (fun a ↦ e (i :: a)) = fun a ↦ f (i :: a) := funext fun a ↦ h i a (Nat.le_refl i)
    rw [editAll, editAll, ht, ih fun j a hj ↦ h j a (by omega)]

/-- Without edits a tree stays as it is. -/
theorem edit_eq_self {e : Address → Option Edit} (h : ∀ a, e a = none) (t : Syntax.Tree κ) :
    edit e t = [t] := by
  rw [show e = fun _ ↦ none from funext h, edit_none]

/-- Trees without edits from their own index on stay as they are. -/
theorem editAll_eq_self {e : Address → Option Edit} {i : Nat}
    (h : ∀ j a, i ≤ j → e (j :: a) = none) (ts : List (Syntax.Tree κ)) : editAll e i ts = ts := by
  rw [editAll_congr (f := fun _ ↦ none) h, editAll_none]

/-- Where the root is not edited, the children are. -/
theorem edit_of_root {e : Address → Option Edit} (h : e [] = none) (t : Syntax.Tree κ) :
    edit e t = [.node t.kind t.span (editAll e 0 t.children)] := by
  cases t
  simp only [edit, h]
  rfl

/-! ### The edits of decisions -/

/-- A decision edits at most one address. -/
theorem editsOf_singleton {d : Decision} {b : Address} {e : Edit} (h : d.edit? = some (b, e))
    (a : Address) : editsOf [d] a = if a = b then some e else none := by
  by_cases ha : a = b
  · simp [editsOf, h, ha]
  · have hb : (a == b) = false := by simpa using ha
    simp [editsOf, h, List.lookup_cons, ha, hb]

private theorem editsOf_append (ds es : List Decision) (a : Address) :
    editsOf (ds ++ es) a = (editsOf ds a).or (editsOf es a) := by
  simp [editsOf, List.filterMap_append, List.lookup_append]

private theorem editsOf_cons (d : Decision) (ds : List Decision) (a : Address) :
    editsOf (d :: ds) a = (editsOf [d] a).or (editsOf ds a) :=
  editsOf_append [d] ds a

private theorem editsOf_singleton_below (i : Nat) (d : Decision) (a : Address) :
    editsOf [d.below i] (i :: a) = editsOf [d] a := by
  simp only [editsOf, List.filterMap_cons, Decision.edit?_below]
  cases d.edit? with
  | none => rfl
  | some e =>
    obtain ⟨b, e⟩ := e
    have hb : (i :: a == i :: b) = (a == b) := by
      by_cases h : a = b <;> simp [h]
    simp [List.lookup_cons, hb]

/-- The edits below an index are those of the decisions below it. -/
theorem editsOf_map_below (i : Nat) (ds : List Decision) (a : Address) :
    editsOf (ds.map (·.below i)) (i :: a) = editsOf ds a := by
  induction ds with
  | nil => rfl
  | cons d ds ih =>
    rw [List.map_cons, editsOf_cons, editsOf_cons d, editsOf_singleton_below, ih]

/-- An edit stands at or below the site that calls for it. -/
theorem exists_prefix_of_edit? {d : Decision} {a : Address} {e : Edit}
    (h : d.edit? = some (a, e)) : d.address <+: a := by
  obtain ⟨b, r, action⟩ := d
  cases action <;> cases r <;> cases h
  all_goals first
    | exact List.prefix_append ..
    | exact List.prefix_refl _

/-- Nothing is edited where no site stands above. -/
theorem editsOf_eq_none {ds : List Decision} {a : Address}
    (h : ∀ d ∈ ds, ¬d.address <+: a) : editsOf ds a = none := by
  rw [editsOf, List.lookup_eq_none_iff]
  rintro ⟨b, e⟩ hb
  obtain ⟨d, hd, he⟩ := List.mem_filterMap.mp hb
  have hne : a ≠ b := fun hab ↦ h d hd (hab ▸ exists_prefix_of_edit? he)
  simpa using hne

/-- Decisions on sites of trees are addressed below the index of one of them. -/
private theorem address_of_site_mem {inItems : Bool} {ts : List (Syntax.Tree κ)} {i : Nat}
    {d : Decision} (h : d.site ∈ sitesAll inItems i ts) : ∃ j a, d.address = (i + j) :: a := by
  obtain ⟨j, a, -, ha, -, -⟩ := mem_sitesAll.mp h
  exact ⟨j, a, ha⟩

/-- Decisions about children leave the root alone. -/
theorem editsOf_root {inItems : Bool} {ts : List (Syntax.Tree κ)} {i : Nat} {ds : List Decision}
    (h : ∀ d ∈ ds, d.site ∈ sitesAll inItems i ts) : editsOf ds [] = none := by
  refine editsOf_eq_none fun d hd hp ↦ ?_
  obtain ⟨j, a, ha⟩ := address_of_site_mem (h d hd)
  simp [ha] at hp

/-- Among trees that stand beside each other, each is edited by the decisions about itself. -/
theorem editAll_append {inItems : Bool} {t : Syntax.Tree κ} {ts : List (Syntax.Tree κ)} {i : Nat}
    (ds : List Decision) {es : List Decision}
    (hes : ∀ d ∈ es, d.site ∈ sitesAll inItems (i + 1) ts) :
    editAll (editsOf (ds.map (·.below i) ++ es)) i (t :: ts) =
      edit (editsOf ds) t ++ editAll (editsOf es) (i + 1) ts := by
  have hhere : (fun a ↦ editsOf (ds.map (·.below i) ++ es) (i :: a)) = editsOf ds := by
    funext a
    have hnone : editsOf es (i :: a) = none := by
      refine editsOf_eq_none fun d hd hp ↦ ?_
      obtain ⟨j, b, hb⟩ := address_of_site_mem (hes d hd)
      rw [hb, List.cons_prefix_cons] at hp
      omega
    rw [editsOf_append, editsOf_map_below, hnone, Option.or_none]
  have hbehind : ∀ j a, i + 1 ≤ j →
      editsOf (ds.map (·.below i) ++ es) (j :: a) = editsOf es (j :: a) := by
    intro j a hj
    have hnone : editsOf (ds.map (·.below i)) (j :: a) = none := by
      refine editsOf_eq_none fun d hd hp ↦ ?_
      obtain ⟨c, -, rfl⟩ := List.mem_map.mp hd
      have := (List.cons_prefix_cons.mp hp).1
      omega
    rw [editsOf_append, hnone, Option.none_or]
  rw [editAll, hhere, editAll_congr hbehind]

end Relocation.Pass
