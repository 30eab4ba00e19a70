import Relocation.Proofs.FileTree.Parts
import Relocation.Proofs.Path.Relative

/-!
# Ways that are followed in a tree

The way between the names of two positions is followed from the first one to the second one: above
a directory of the tree there are directories only, so two dots lead where the names say. No link
is met, however the directory itself was reached.
-/

namespace Relocation.FileTree

open Relocation.Path (climb commonLength descent dotDot slash wayBetween)

variable {t : FileTree} {p q r : Position}

/-- As many pairs of dots lead from a directory to the one that many names above it. -/
theorem Reached.exists_follows_climb (h : Reached t p) {entries : Entries}
    (here : p.here = .directory entries) (k : Nat) :
    ∃ m, Follows 0 p (List.replicate k dotDot) m ∧ Reached t m ∧
      m.names = p.names.take (p.names.length - k) := by
  induction k generalizing p entries with
  | zero => exact ⟨p, .done 0 p, h, by rw [Nat.sub_zero, List.take_length]⟩
  | succ k ih =>
    obtain ⟨above, habove⟩ := h.exists_here_up
    obtain ⟨m, hm, hr, hnames⟩ := ih h.up habove
    refine ⟨m, .up here hm, hr, ?_⟩
    have hup : Position.names { p with above := p.above.tail } = p.names.dropLast := by
      simp only [Position.names, List.map_tail, List.dropLast_reverse]
    rw [hnames, hup, List.dropLast_eq_take, List.take_take, List.length_take]
    congr 1
    omega

/-- From a directory, the way to a position leads there. -/
theorem Reached.follows_wayBetween (hq : Reached t q) (hr : Reached t r) {entries : Entries}
    (here : q.here = .directory entries) : Follows 0 q (wayBetween q.names r.names) r := by
  obtain ⟨m, hup, hm, hnames⟩ := hq.exists_follows_climb here (climb q.names r.names)
  have hcommon : m.names = r.names.take (commonLength q.names r.names) := by
    have hle := Path.commonLength_le_left q.names r.names
    rw [hnames, climb, Nat.sub_sub_self hle, Path.take_commonLength]
  -- where the way turns round lies above its end, so names lead down from there
  have hdown := hr.follows_names
  rw [← List.take_append_drop (commonLength q.names r.names) r.names, ← hcommon] at hdown
  obtain ⟨m', hm', hend⟩ := hdown.split
  obtain rfl := hm.follows_names.unique hm'
  exact hup.append hend

/-- The way from a directory to a file comes down to it. -/
theorem Reached.descent_ne_nil (hq : Reached t q) (hr : Reached t r) {entries : Entries}
    (here : q.here = .directory entries) {content : List UInt8} (hfile : r.here = .file content) :
    descent q.names r.names ≠ [] := by
  intro hnil
  -- else the file would lie above the directory, or be it
  have hnames := Path.take_append_descent q.names r.names
  rw [hnil, List.append_nil] at hnames
  have hprefix : r.names <+: q.names := by
    rw [← hnames]
    exact List.take_prefix _ _
  have hdirectory : t.isDirectory r.path := by
    by_cases he : r.names = q.names
    · rw [Position.path_eq, he]
      exact isDirectory_iff.mpr ⟨q, entries, locate_path hq, here⟩
    · exact hq.isDirectory_of_prefix hprefix he
  exact absurd (isFile_iff.mpr ⟨r, content, locate_path hr, hfile⟩)
    (Bool.eq_false_iff.mp (not_isFile_of_isDirectory hdirectory))

/-- Behind the path of a directory, the way from there to a position leads to it. -/
theorem locate_append_slash {d : Path} (hd : t.locate d = .ok q) (hr : Reached t r)
    {entries : Entries} (here : q.here = .directory entries) {bs : List UInt8}
    (hbs : Path.segmentsOf bs = wayBetween q.names r.names ∨
      Path.segmentsOf bs = Path.dot :: wayBetween q.names r.names) :
    t.locate ⟨d.bytes ++ slash :: bs⟩ = .ok r := by
  have hq := reached_of_locate hd
  obtain ⟨hnul, ha, hf⟩ := locate_eq_ok_iff.mp hd
  have hsegments : (⟨d.bytes ++ slash :: bs⟩ : Path).segments =
      d.segments ++ Path.segmentsOf bs := Path.segmentsOf_append_slash d.bytes bs
  have hway : ∀ s ∈ wayBetween q.names r.names, 0 ∉ s :=
    Path.forall_mem_wayBetween (by decide) hr.nul_notMem_of_mem_names
  have hfollows : Follows 0 q (Path.segmentsOf bs) r := by
    have hback := hq.follows_wayBetween hr here
    rcases hbs with h | h
    · rwa [h]
    · rw [h]
      exact .stay here (.inr rfl) hback
  refine locate_eq_ok_iff.mpr ⟨nul_notMem_of_segments ?_, ?_, ?_⟩
  · rw [hsegments]
    refine List.forall_mem_append.mpr ⟨fun s hs ↦ (solid_of_mem_segments hnul s hs).2, ?_⟩
    rcases hbs with h | h
    · rwa [h]
    · rw [h]
      exact List.forall_mem_cons.mpr ⟨by decide, hway⟩
  · obtain ⟨cs, hcs, -⟩ := Path.segments_of_isAbsolute ha
    rw [hcs]
    rfl
  · rw [hsegments]
    exact hf.append hfollows

end Relocation.FileTree
