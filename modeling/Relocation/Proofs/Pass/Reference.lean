import Mathlib.Data.List.Infix
import Relocation.Pass.Basic

/-!
# References in a tree

A reference is a declaration with a source that stands in a list of module items, or a call of
`require` with one argument that is not spread. It stands at an address: which child to take at
each level from the root. The sites of a tree are its references that lie in no other reference.
`sites` lists them in the order of traversal, which is the order of their addresses.
-/

namespace Relocation.Pass

open Syntax (Dialect Span)

variable {κ : Type} [Dialect κ]

/-- Which child to take at each level from the root. -/
abbrev Address := List Nat

/-- What refers to a module. -/
inductive Reference where
  /-- A declaration with this source. -/
  | declaration (source : String)
  /-- A `require` call over this stretch of text. -/
  | call (span : Span) (given : Requirement)
  deriving DecidableEq

/-- The specifier of a reference and the place where it is written, if it is known. -/
def Reference.question? : Reference → Option (Site × String)
  | declaration source => some (.declaration, source)
  | call _ (.specifier value) => some (.require, value)
  | call _ .unknown => none

/-- The call of a reference whose specifier is unknown. -/
def Reference.unknown? : Reference → Option Span
  | call span .unknown => some span
  | _ => none

/-- A tree is a reference. Whether it stands in a list of module items decides for
declarations. -/
inductive IsReference : Bool → Syntax.Tree κ → Reference → Prop where
  | declaration {t s : Syntax.Tree κ} {rest : List (Syntax.Tree κ)} {source : String}
      (role : t.role = .sourced) (children : t.children = s :: rest)
      (text : s.role = .text source) :
      IsReference true t (.declaration source)
  | call {inItems : Bool} {t callee arguments argument e : Syntax.Tree κ}
      {rest : List (Syntax.Tree κ)} (role : t.role = .call)
      (children : t.children = callee :: arguments :: rest)
      (name : callee.role = .name "require") (only : arguments.children = [argument])
      (unspread : argument.role = .argument false) (expression : argument.children = [e]) :
      IsReference inItems t (.call t.span (requirement e))

/-- The tree at an address, and whether it stands in a list of module items. -/
def subtree? (inItems : Bool) (t : Syntax.Tree κ) : Address → Option (Bool × Syntax.Tree κ)
  | [] => some (inItems, t)
  | i :: a => t.children[i]?.bind fun c ↦ subtree? (t.role = .items) c a

/-- A reference stands at an address. -/
def RefersAt (inItems : Bool) (t : Syntax.Tree κ) (a : Address) (r : Reference) : Prop :=
  ∃ stands u, subtree? inItems t a = some (stands, u) ∧ IsReference stands u r

/-- A reference stands at an address and lies in no other reference. -/
def IsSite (inItems : Bool) (t : Syntax.Tree κ) (a : Address) (r : Reference) : Prop :=
  RefersAt inItems t a r ∧ ∀ b, b <+: a → b ≠ a → ∀ q, ¬RefersAt inItems t b q

/-! ### The reference that a tree is -/

/-- The reference that a tree is. -/
def reference? (inItems : Bool) (t : Syntax.Tree κ) : Option Reference :=
  match t.role with
  | .call => (requireArgument? t.children).map fun e ↦ .call t.span (requirement e)
  | .sourced => if inItems then (source? t).map .declaration else none
  | _ => none

/-- The argument of a `require` call stands in a list of one argument that is not spread. -/
theorem requireArgument?_eq_some {children : List (Syntax.Tree κ)} {e : Syntax.Tree κ} :
    requireArgument? children = some e ↔
      ∃ callee arguments rest argument, children = callee :: arguments :: rest ∧
        callee.role = .name "require" ∧ arguments.children = [argument] ∧
        argument.role = .argument false ∧ argument.children = [e] := by
  constructor
  · intro h
    match children with
    | [] | [_] => simp [requireArgument?] at h
    | callee :: arguments :: rest =>
      simp only [requireArgument?, onlyArgument?] at h
      split at h
      · next hn =>
        split at h
        · next argument ho =>
          split at h
          · next hr he =>
            cases h
            exact ⟨callee, arguments, rest, argument, rfl, hn, ho, hr, he⟩
          · simp at h
        · simp at h
      · simp at h
  · rintro ⟨callee, arguments, rest, argument, rfl, hn, ho, hr, he⟩
    simp [requireArgument?, onlyArgument?, hn, ho, hr, he]

/-- The source of a declaration is its first child. -/
theorem source?_eq_some {t : Syntax.Tree κ} {source : String} :
    source? t = some source ↔
      t.role = .sourced ∧ ∃ s rest, t.children = s :: rest ∧ s.role = .text source := by
  constructor
  · intro h
    simp only [source?] at h
    split at h
    · next s rest hr hc =>
      split at h
      · next value hs =>
        cases h
        exact ⟨hr, s, rest, hc, hs⟩
      · simp at h
    · simp at h
  · rintro ⟨hr, s, rest, hc, hs⟩
    simp [source?, hr, hc, hs]

/-- The reference that a tree is computed to be is the one that it is. -/
theorem reference?_eq_some_iff {inItems : Bool} {t : Syntax.Tree κ} {r : Reference} :
    reference? inItems t = some r ↔ IsReference inItems t r := by
  constructor
  · intro h
    simp only [reference?] at h
    split at h
    · next hr =>
      obtain ⟨e, he, rfl⟩ := Option.map_eq_some_iff.mp h
      obtain ⟨callee, arguments, rest, argument, hc, hn, ho, hs, hx⟩ :=
        requireArgument?_eq_some.mp he
      exact .call hr hc hn ho hs hx
    · next hr =>
      split at h
      · next hi =>
        obtain ⟨source, hs, rfl⟩ := Option.map_eq_some_iff.mp h
        obtain ⟨-, s, rest, hc, ht⟩ := source?_eq_some.mp hs
        rw [hi]
        exact .declaration hr hc ht
      · simp at h
    · simp at h
  · intro h
    cases h with
    | declaration hr hc ht =>
      simp [reference?, hr, source?_eq_some.mpr ⟨hr, _, _, hc, ht⟩]
    | call hr hc hn ho hs hx =>
      simp [reference?, hr, requireArgument?_eq_some.mpr ⟨_, _, _, _, hc, hn, ho, hs, hx⟩]

/-- Away from lists of module items, only calls are references. -/
theorem reference?_of_source?_eq_none {t : Syntax.Tree κ} (h : source? t = none) (inItems : Bool) :
    reference? inItems t = reference? false t := by
  simp only [reference?, h]
  split <;> simp

/-- In a list of items, a declaration with a source is a reference to it. -/
theorem reference?_of_source?_eq_some {t : Syntax.Tree κ} {source : String}
    (h : source? t = some source) : reference? true t = some (.declaration source) := by
  simp [reference?, (source?_eq_some.mp h).1, h]

/-- Away from lists of module items, the references are the `require` calls. -/
theorem reference?_false_eq_some {t : Syntax.Tree κ} {r : Reference} :
    reference? false t = some r ↔
      ∃ e, requireArgument? t.children = some e ∧ t.role = .call ∧
        r = .call t.span (requirement e) := by
  constructor
  · intro h
    simp only [reference?] at h
    split at h
    · next hr =>
      obtain ⟨e, he, rfl⟩ := Option.map_eq_some_iff.mp h
      exact ⟨e, he, hr, rfl⟩
    · simp at h
    · simp at h
  · rintro ⟨e, he, hr, rfl⟩
    simp [reference?, he, hr]

/-! ### The sites of a tree -/

mutual

/-- The sites of a tree in the order of traversal. -/
def sites (inItems : Bool) : Syntax.Tree κ → List (Address × Reference)
  | .node kind span children =>
    match reference? inItems (.node kind span children) with
    | some r => [([], r)]
    | none => sitesAll (Dialect.role kind = .items) 0 children

/-- The sites of trees that stand beside each other, the first one as the child of this index. -/
def sitesAll (inItems : Bool) (i : Nat) : List (Syntax.Tree κ) → List (Address × Reference)
  | [] => []
  | t :: ts => (sites inItems t).map (Prod.map (i :: ·) id) ++ sitesAll inItems (i + 1) ts

end

/-- A reference is its own only site. -/
theorem sites_of_reference? {inItems : Bool} {t : Syntax.Tree κ} {r : Reference}
    (h : reference? inItems t = some r) : sites inItems t = [([], r)] := by
  cases t
  simp [sites, h]

/-- The sites of what is no reference are those of its children. -/
theorem sites_of_reference?_eq_none {inItems : Bool} {t : Syntax.Tree κ}
    (h : reference? inItems t = none) :
    sites inItems t = sitesAll (t.role = .items) 0 t.children := by
  cases t
  simp only [sites, h]
  rfl

/-- The sites of a tree without a source do not depend on where it stands. -/
theorem sites_of_source?_eq_none {t : Syntax.Tree κ} (h : source? t = none) (inItems : Bool) :
    sites inItems t = sites false t := by
  cases t
  simp only [sites, reference?_of_source?_eq_none h inItems]

/-- The sites of trees are those of each, behind its index. -/
theorem mem_sitesAll {inItems : Bool} {ts : List (Syntax.Tree κ)} {i : Nat} {a : Address}
    {r : Reference} :
    (a, r) ∈ sitesAll inItems i ts ↔
      ∃ j b t, a = (i + j) :: b ∧ ts[j]? = some t ∧ (b, r) ∈ sites inItems t := by
  induction ts generalizing i with
  | nil => simp [sitesAll]
  | cons t ts ih =>
    rw [sitesAll, List.mem_append, ih]
    constructor
    · rintro (h | ⟨j, b, u, rfl, hu, hr⟩)
      · obtain ⟨⟨b, q⟩, hb, he⟩ := List.mem_map.mp h
        cases he
        exact ⟨0, b, t, rfl, rfl, hb⟩
      · exact ⟨j + 1, b, u, by rw [Nat.add_right_comm, Nat.add_assoc], hu, hr⟩
    · rintro ⟨j, b, u, rfl, hu, hr⟩
      cases j with
      | zero =>
        cases hu
        exact .inl (List.mem_map.mpr ⟨(b, r), hr, rfl⟩)
      | succ j => exact .inr ⟨j, b, u, by rw [Nat.add_right_comm, Nat.add_assoc], hu, hr⟩

private theorem nil_mem_sites {inItems : Bool} {t : Syntax.Tree κ} {r : Reference} :
    ([], r) ∈ sites inItems t ↔ IsReference inItems t r := by
  rw [← reference?_eq_some_iff]
  cases h : reference? inItems t with
  | none => simp [sites_of_reference?_eq_none h, mem_sitesAll]
  | some q => simp [sites_of_reference? h, eq_comm]

private theorem cons_mem_sites {inItems : Bool} {t : Syntax.Tree κ} {i : Nat} {a : Address}
    {r : Reference} :
    (i :: a, r) ∈ sites inItems t ↔
      (∀ q, ¬IsReference inItems t q) ∧
        ∃ c, t.children[i]? = some c ∧ (a, r) ∈ sites (t.role = .items) c := by
  simp only [← reference?_eq_some_iff]
  cases h : reference? inItems t with
  | none => simp [sites_of_reference?_eq_none h, mem_sitesAll]
  | some q => simp [sites_of_reference? h]

/-! ### Sites by their addresses -/

private theorem refersAt_nil {inItems : Bool} {t : Syntax.Tree κ} {r : Reference} :
    RefersAt inItems t [] r ↔ IsReference inItems t r := by
  simp [RefersAt, subtree?]

private theorem refersAt_cons {inItems : Bool} {t : Syntax.Tree κ} {i : Nat} {a : Address}
    {r : Reference} : RefersAt inItems t (i :: a) r ↔
      ∃ c, t.children[i]? = some c ∧ RefersAt (t.role = .items) c a r := by
  simp only [RefersAt, subtree?, Option.bind_eq_some_iff]
  constructor
  · rintro ⟨stands, u, ⟨c, hc, hu⟩, hr⟩
    exact ⟨c, hc, stands, u, hu, hr⟩
  · rintro ⟨c, hc, stands, u, hu, hr⟩
    exact ⟨stands, u, ⟨c, hc, hu⟩, hr⟩

/-- What stands at an address lies in a reference. -/
def Enclosed (inItems : Bool) (t : Syntax.Tree κ) (a : Address) : Prop :=
  ∃ b, b <+: a ∧ b ≠ a ∧ ∃ q, RefersAt inItems t b q

/-- A site is a reference that does not lie in another. -/
theorem isSite_iff {inItems : Bool} {t : Syntax.Tree κ} {a : Address} {r : Reference} :
    IsSite inItems t a r ↔ RefersAt inItems t a r ∧ ¬Enclosed inItems t a := by
  simp [IsSite, Enclosed]

/-- A tree does not lie in itself. -/
@[simp] theorem not_enclosed_nil (inItems : Bool) (t : Syntax.Tree κ) :
    ¬Enclosed inItems t [] :=
  fun ⟨_, hb, hne, _⟩ ↦ hne (List.prefix_nil.mp hb)

/-- What stands further down lies in a reference if it does in a child, or the tree is one. -/
theorem enclosed_cons {inItems : Bool} {t : Syntax.Tree κ} {i : Nat} {a : Address} :
    Enclosed inItems t (i :: a) ↔ (∃ q, IsReference inItems t q) ∨
      ∃ c, t.children[i]? = some c ∧ Enclosed (t.role = .items) c a := by
  constructor
  · rintro ⟨b, hb, hne, q, hq⟩
    cases b with
    | nil => exact .inl ⟨q, refersAt_nil.mp hq⟩
    | cons j b =>
      obtain ⟨rfl, hp⟩ := List.cons_prefix_cons.mp hb
      obtain ⟨c, hc, hq⟩ := refersAt_cons.mp hq
      exact .inr ⟨c, hc, b, hp, by simpa using hne, q, hq⟩
  · rintro (⟨q, hq⟩ | ⟨c, hc, b, hb, hne, q, hq⟩)
    · exact ⟨[], List.nil_prefix, by simp, q, refersAt_nil.mpr hq⟩
    · exact ⟨i :: b, List.cons_prefix_cons.mpr ⟨rfl, hb⟩, by simpa using hne, q,
        refersAt_cons.mpr ⟨c, hc, hq⟩⟩

private theorem enclosed_cons_of_reference? {inItems : Bool} {t : Syntax.Tree κ}
    {r : Reference} (hr : reference? inItems t = some r) (i : Nat) (a : Address) :
    Enclosed inItems t (i :: a) :=
  enclosed_cons.mpr (.inl ⟨r, reference?_eq_some_iff.mp hr⟩)

/-- In a tree that is no reference, what lies in a reference lies in one of a child's. -/
theorem enclosed_cons_iff {inItems : Bool} {t c : Syntax.Tree κ} {i : Nat} {a : Address}
    (hr : reference? inItems t = none) (hi : t.children[i]? = some c) :
    Enclosed inItems t (i :: a) ↔ Enclosed (t.role = .items) c a := by
  simp [enclosed_cons, ← reference?_eq_some_iff, hr, hi]

/-- What encloses no reference in itself is none. -/
theorem reference?_eq_none_of_not_enclosed {inItems : Bool} {t : Syntax.Tree κ} {i : Nat}
    {a : Address} (he : ¬Enclosed inItems t (i :: a)) :
    reference? inItems t = none :=
  Option.eq_none_iff_forall_ne_some.mpr fun _ hr ↦ he (enclosed_cons_of_reference? hr i a)

/-- At the root, a site is a reference. -/
theorem isSite_nil {inItems : Bool} {t : Syntax.Tree κ} {r : Reference} :
    IsSite inItems t [] r ↔ IsReference inItems t r := by
  simp [isSite_iff, refersAt_nil]

/-- A site further down lies in no reference and is a site of a child. -/
theorem isSite_cons {inItems : Bool} {t : Syntax.Tree κ} {i : Nat} {a : Address} {r : Reference} :
    IsSite inItems t (i :: a) r ↔
      (∀ q, ¬IsReference inItems t q) ∧
        ∃ c, t.children[i]? = some c ∧ IsSite (t.role = .items) c a r := by
  simp only [isSite_iff, refersAt_cons, enclosed_cons, not_or, not_exists, not_and]
  constructor
  · rintro ⟨⟨c, hc, hr⟩, htop, hout⟩
    exact ⟨htop, c, hc, hr, hout c hc⟩
  · rintro ⟨htop, c, hc, hr, hout⟩
    refine ⟨⟨c, hc, hr⟩, htop, fun d hd ↦ ?_⟩
    rwa [Option.some.inj (hd.symm.trans hc)]

/-- The list of sites holds exactly the references that lie in no other reference. -/
theorem mem_sites_iff {inItems : Bool} {t : Syntax.Tree κ} {a : Address} {r : Reference} :
    (a, r) ∈ sites inItems t ↔ IsSite inItems t a r := by
  induction a generalizing inItems t with
  | nil => rw [nil_mem_sites, isSite_nil]
  | cons i a ih =>
    rw [cons_mem_sites, isSite_cons]
    exact and_congr_right fun _ ↦ exists_congr fun c ↦ and_congr_right fun _ ↦ ih

mutual

/-- Sites are listed in the order of their addresses. -/
theorem pairwise_sites (inItems : Bool) (t : Syntax.Tree κ) :
    ((sites inItems t).map (·.1)).Pairwise (· < ·) := by
  cases t with
  | node kind span children =>
    cases h : reference? inItems (.node kind span children) with
    | some r => simp [sites_of_reference? h]
    | none =>
      rw [sites_of_reference?_eq_none h]
      exact pairwise_sitesAll _ 0 children

/-- So are those of trees that stand beside each other. -/
theorem pairwise_sitesAll (inItems : Bool) (i : Nat) (ts : List (Syntax.Tree κ)) :
    ((sitesAll inItems i ts).map (·.1)).Pairwise (· < ·) := by
  cases ts with
  | nil => simp [sitesAll]
  | cons t ts =>
    rw [sitesAll, List.map_append, List.pairwise_append]
    refine ⟨?_, pairwise_sitesAll inItems (i + 1) ts, fun a ha b hb ↦ ?_⟩
    · rw [List.map_map, show (·.1) ∘ Prod.map (i :: ·) id = (i :: ·) ∘ (·.1) from rfl,
        ← List.map_map, List.pairwise_map]
      exact (pairwise_sites inItems t).imp fun h ↦ List.cons_lt_cons_self.mpr h
    · obtain ⟨⟨_, r⟩, hr, rfl⟩ := List.mem_map.mp ha
      obtain ⟨⟨a, r⟩, -, he⟩ := List.mem_map.mp hr
      obtain ⟨⟨_, q⟩, hq, rfl⟩ := List.mem_map.mp hb
      obtain ⟨j, b, u, rfl, -, -⟩ := mem_sitesAll.mp hq
      cases he
      exact List.Lex.rel (show i < i + 1 + j by omega)

end

end Relocation.Pass
