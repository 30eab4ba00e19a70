import Relocation.Proofs.FileTree.Following

/-!
# Trees whose names are text

In a tree whose names are text, a path that leads somewhere is text, whatever links are on the
way: each of its segments is looked up among the names. So is its canonical path.
-/

namespace Relocation.FileTree

open Relocation.Path (slash)
open Text.Utf8 (IsText)

mutual

/-- Tests whether the names in an entry are text. The target of a link is no name. -/
def isWorded : Entry → Bool
  | .directory entries => areWorded entries
  | .file _ => true
  | .link _ => true

/-- Tests whether the names in a directory, and those in its entries, are text. -/
def areWorded : Entries → Bool
  | [] => true
  | (n, e) :: rest => (Text.Utf8.decode? n).isSome && isWorded e && areWorded rest

end

/-- All names in a tree are text. -/
def Worded (t : FileTree) : Prop := areWorded t.entries

instance (t : FileTree) : Decidable t.Worded := inferInstanceAs (Decidable (_ = true))

private theorem isWorded_of_lookup {entries : Entries} (h : areWorded entries) {n : Name}
    {e : Entry} (he : entries.lookup n = some e) : IsText n ∧ isWorded e := by
  induction entries with
  | nil => simp at he
  | cons entry rest ih =>
    obtain ⟨m, f⟩ := entry
    rw [areWorded, Bool.and_eq_true, Bool.and_eq_true] at h
    rw [List.lookup_cons] at he
    split at he
    · next hn =>
      cases he
      rw [eq_of_beq hn]
      exact ⟨Text.Utf8.isText_iff_isSome.mpr h.1.1, h.1.2⟩
    · exact ih h.2 he

namespace Worded

variable {t : FileTree} {p q : Position}

private theorem isWorded_here (ht : t.Worded) (h : Reached t p) : isWorded p.here := by
  induction h with
  | root => exact ht
  | child _ here _ _ _ found _ ih =>
    rw [here] at ih
    exact (isWorded_of_lookup ih found).2

private theorem isText_of_lookup (ht : t.Worded) (h : Reached t p) {entries : Entries}
    (here : p.here = .directory entries) {n : Name} {e : Entry}
    (found : entries.lookup n = some e) : IsText n := by
  have hworded := ht.isWorded_here h
  rw [here] at hworded
  exact (isWorded_of_lookup hworded found).1

private theorem isText_of_mem_names (ht : t.Worded) (h : Reached t p) :
    ∀ n ∈ p.names, IsText n := by
  induction h with
  | root => simp [Position.names]
  | child directory here _ _ _ found _ ih =>
    simp only [Position.names, List.map_cons, List.reverse_cons, List.mem_append,
      List.mem_singleton] at ih ⊢
    rintro n (hn | rfl)
    · exact ih n hn
    · exact ht.isText_of_lookup directory here found

/-- Segments that lead somewhere are text. -/
theorem isText_of_follows (ht : t.Worded) {k : Nat} {ss : List Name} (h : Follows k p ss q)
    (hp : Reached t p) (hs : ∀ s ∈ ss, slash ∉ s ∧ 0 ∉ s) : ∀ s ∈ ss, IsText s := by
  induction h with
  | done k p => simp
  | stay _ dots _ ih =>
    refine List.forall_mem_cons.mpr ⟨?_, ih hp fun s h ↦ hs s (List.mem_cons_of_mem _ h)⟩
    rcases dots with rfl | rfl
    · exact Text.Utf8.isText_nil
    · exact ⟨".", rfl⟩
  | up _ _ ih =>
    exact List.forall_mem_cons.mpr
      ⟨⟨"..", rfl⟩, ih hp.up fun s h ↦ hs s (List.mem_cons_of_mem _ h)⟩
  | enter here named short found noLink _ ih =>
    have hentered := hp.enter here named (hs _ (List.mem_cons_self ..)) short found noLink
    exact List.forall_mem_cons.mpr ⟨ht.isText_of_lookup hp here found,
      ih hentered fun s h ↦ hs s (List.mem_cons_of_mem _ h)⟩
  | follow here _ _ found noNul _ ih =>
    -- the link's own segments are followed too, from where the link or the root is
    have hrest := ih (by split; exacts [hp.toRoot, hp]) (List.forall_mem_append.mpr
      ⟨solid_of_mem_segments noNul, fun s h ↦ hs s (List.mem_cons_of_mem _ h)⟩)
    exact List.forall_mem_cons.mpr ⟨ht.isText_of_lookup hp here found,
      (List.forall_mem_append.mp hrest).2⟩

/-- A path that leads somewhere is text. -/
theorem isText_of_locate (ht : t.Worded) {p : Path} (h : t.locate p = .ok q) : IsText p.bytes := by
  obtain ⟨hnul, -, hf⟩ := locate_eq_ok_iff.mp h
  have htext := Path.isText_joinSegments
    (ht.isText_of_follows hf .root (solid_of_mem_segments hnul))
  rwa [Path.segments, Path.joinSegments_segmentsOf] at htext

/-- So is its canonical path. -/
theorem isText_of_canonicalize (ht : t.Worded) {p c : Path} (h : t.canonicalize p = .ok c) :
    IsText c.bytes := by
  obtain ⟨q, hq, rfl⟩ := canonicalize_eq_ok_iff.mp h
  exact Path.isText_rooted (ht.isText_of_mem_names (reached_of_locate hq))

end Worded

end Relocation.FileTree
