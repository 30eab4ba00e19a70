import Relocation.Proofs.FileTree.Parts
import Relocation.Proofs.Path.Way

/-!
# Paths that turn back

Two dots in a path lead to the directory that holds the one reached so far, its clean form takes
the last name back. Behind a link these are different directories. A path that leads somewhere
leads there in its clean form too if this makes no difference to it, in particular if it has no two
dots or there are no links.
-/

namespace Relocation.FileTree

open Relocation.Path (dot dotDot reach slash)
open Text.Utf8 (IsText)

variable {t : FileTree} {k : Nat} {p : Path} {q : Position}

/-- Wherever a path turns back, it has led as far as its clean form leads, through as many links at
least. -/
def TurnsBack (t : FileTree) (p : Path) : Prop :=
  ∀ ss, ss ++ [dotDot] <+: p.segments → ∀ k q, Follows k ⟨t, []⟩ (ss ++ [dotDot]) q →
    Follows k ⟨t, []⟩ (reach [] (ss ++ [dotDot])) q

/-- A path without two dots turns back nowhere. -/
theorem turnsBack_of_notMem (h : dotDot ∉ p.segments) : t.TurnsBack p := by
  intro ss hss
  exact absurd (hss.subset (List.mem_append_right ss (List.mem_singleton_self dotDot))) h

/-- Without links, two dots take the last name back. -/
theorem Linkless.turnsBack (ht : t.Linkless) (hnul : 0 ∉ p.bytes) : t.TurnsBack p := by
  intro ss hss k q h
  have hsolid : ∀ s ∈ ss ++ [dotDot], slash ∉ s ∧ 0 ∉ s := fun s hs ↦
    solid_of_mem_segments hnul s (hss.subset hs)
  have hnames : q.names = reach [] (ss ++ [dotDot]) := h.names_of_linkless ht .root hsolid
  rw [← hnames]
  exact (h.reached .root hsolid).follows_names.mono (Nat.zero_le k)

/-- A segment other than two dots leads on from where names lead as it leads on from the names. -/
theorem Follows.reach_concat {j l : Nat} {p m : Position} {ns : List Name} {s : Name}
    (h : Follows j p ns m) (hs : Follows l m [s] q) (hdots : s ≠ dotDot) (hslash : slash ∉ s) :
    Follows (j + l) p (reach ns [s]) q := by
  by_cases hnone : s = [] ∨ s = dot
  · -- nothing is meant by the segment, so its directory is the end
    have hend : reach ns [s] = ns := by
      rcases hnone with rfl | rfl
      · rw [Path.reach_cons_nil, Path.reach_nil]
      · rw [Path.reach_cons_dot, Path.reach_nil]
    rw [hend]
    cases hs with
    | stay _ _ rest =>
      cases rest
      exact h.mono (Nat.le_add_right j l)
    | up => exact absurd rfl hdots
    | enter _ named | follow _ named => exact absurd hnone (not_or.mpr ⟨named.1, named.2.1⟩)
  · rw [not_or] at hnone
    rw [Path.reach_cons_plain ⟨hnone.1, hnone.2, hdots, hslash⟩, Path.reach_nil]
    exact h.append hs

/-- Segments lead where the names lead that they reach, if the path turns back so. -/
theorem TurnsBack.follows_reach (ht : t.TurnsBack p) {ss : List Name} (hss : ss <+: p.segments)
    (h : Follows k ⟨t, []⟩ ss q) : Follows k ⟨t, []⟩ (reach [] ss) q := by
  induction ss using List.reverseRecOn generalizing k q with
  | nil => exact h
  | append_singleton ss s ih =>
    have hfront : ss <+: p.segments := (List.prefix_append ss [s]).trans hss
    by_cases hdots : s = dotDot
    · subst hdots
      exact ht ss hss k q h
    · obtain ⟨j, l, m, rfl, hm, hq⟩ := h.through
      have hmem : s ∈ p.segments := hss.subset (by simp)
      rw [Path.reach_append]
      exact (ih hfront hm).reach_concat hq hdots (Path.slash_notMem_of_mem_segmentsOf hmem)

/-- A path that turns back so leads where its clean form leads. -/
theorem TurnsBack.locate_clean (ht : t.TurnsBack p) (htext : IsText p.bytes)
    (h : t.locate p = .ok q) : t.locate p.clean = .ok q := by
  obtain ⟨hnul, ha, hf⟩ := locate_eq_ok_iff.mp h
  have hsolid : ∀ n ∈ p.names, slash ∉ n ∧ 0 ∉ n := by
    have hkept : ∀ n ∈ p.names, (slash ∉ n ∧ 0 ∉ n) ∧ n ≠ dotDot :=
      Path.forall_mem_reach (P := fun n ↦ slash ∉ n ∧ 0 ∉ n) (by simp)
        (fun s hs _ _ _ ↦ solid_of_mem_segments hnul s hs) (by simp)
    exact fun n hn ↦ (hkept n hn).1
  rw [Path.clean_of_isAbsolute ha htext]
  exact locate_rooted hsolid (ht.follows_reach List.prefix_rfl hf)

end Relocation.FileTree
