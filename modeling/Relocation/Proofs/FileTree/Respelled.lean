import Relocation.Proofs.FileTree.Parts
import Relocation.Proofs.Path.Meaning

/-!
# Paths that are spelled in several ways

Empty segments and single dots in front of other segments make no difference to where a path leads:
they stay in a directory, and what stands behind them could be followed from a directory only. At
the end of a path they do make one, since a file has no such segments behind it. So two spellings
of a path lead to the same if they end alike and mean the same in front of that.
-/

namespace Relocation

namespace Path

/-- Two absolute paths end alike and mean the same in front of that. -/
structure Respelled (p q : Path) : Prop where
  isAbsolute_left : p.isAbsolute
  isAbsolute_right : q.isAbsolute
  exists_end : ∃ ss ts us, p.segments = ss ++ us ∧ q.segments = ts ++ us ∧ us ≠ [] ∧
    meaning ss = meaning ts

namespace Respelled

variable {p q : Path}

private theorem refl (h : p.isAbsolute) : Respelled p p :=
  ⟨h, h, [], [], p.segments, rfl, rfl, p.segments_ne_nil, rfl⟩

/-- Spelling each other anew goes both ways. -/
theorem symm (h : Respelled p q) : Respelled q p := by
  obtain ⟨ss, ts, us, hp, hq, hne, hm⟩ := h.exists_end
  exact ⟨h.isAbsolute_right, h.isAbsolute_left, ts, ss, us, hq, hp, hne, hm.symm⟩

/-- Paths that spell each other anew have the same components. -/
theorem same (h : Respelled p q) : p.same q := by
  obtain ⟨ss, ts, us, hp, hq, -, hm⟩ := h.exists_end
  rw [same_iff h.isAbsolute_left h.isAbsolute_right, hp, hq, meaning_append, meaning_append, hm]

end Respelled

section

variable {p q : Path} (hp : p.isAbsolute) (hq : q.isAbsolute) (h : p.same q)

include hp hq h

/-- What is joined to paths that mean the same is respelled. -/
theorem respelled_join (x : Path) : Respelled (p.join x) (q.join x) := by
  cases hx : x.isAbsolute with
  | true =>
    rw [join_of_isAbsolute p hx, join_of_isAbsolute q hx]
    exact .refl hx
  | false =>
    rw [same_iff hp hq] at h
    refine ⟨isAbsolute_join x hp, isAbsolute_join x hq, _, _, x.segments, segments_join p hx,
      segments_join q hx, x.segments_ne_nil, ?_⟩
    rw [meaning_frontSegments, meaning_frontSegments, h]

private theorem same_parentDirectory : p.parentDirectory.same q.parentDirectory := by
  rw [same_iff hp hq] at h
  refine decide_eq_true ?_
  rw [components_parentDirectory hp, components_parentDirectory hq, h]

/-- Paths that mean the same have one last name. -/
theorem fileName?_of_same : p.fileName? = q.fileName? := by
  have hc : p.components = q.components := of_decide_eq_true h
  refine Option.ext fun n ↦ ?_
  rw [fileName?_eq_some_iff hp, fileName?_eq_some_iff hq, hc]

/-- Paths that spell each other anew do so again with another last name. -/
theorem respelled_withFileName (n : Name) :
    Respelled (p.withFileName n) (q.withFileName n) := by
  unfold withFileName
  rw [← fileName?_of_same hp hq h]
  split
  · exact respelled_join (isAbsolute_parentDirectory hp) (isAbsolute_parentDirectory hq)
      (same_parentDirectory hp hq h) ⟨n⟩
  · exact respelled_join hp hq h ⟨n⟩

end

end Path

namespace FileTree

open Relocation.Path (Component Respelled meaning)

variable {t : FileTree} {k : Nat} {p q : Position} {s : Name} {ss ts us : List Name}

/-- Segments are followed from a directory. -/
theorem Follows.exists_here (h : Follows k p ss q) (hss : ss ≠ []) :
    ∃ entries, p.here = .directory entries := by
  cases h with
  | done => exact absurd rfl hss
  | stay here | up here | enter here | follow here => exact ⟨_, here⟩

/-- A segment that means nothing makes no difference in front of others. -/
theorem follows_cons_of_none (hs : Component.ofSegment s = none) (hss : ss ≠ []) :
    Follows k p (s :: ss) q ↔ Follows k p ss q := by
  have hnone := Path.ofSegment_eq_none_iff.mp hs
  constructor
  · intro h
    cases h with
    | stay _ _ rest => exact rest
    | up => cases hs
    | enter _ named | follow _ named => exact absurd hnone (not_or.mpr ⟨named.1, named.2.1⟩)
  · intro h
    obtain ⟨entries, here⟩ := h.exists_here hss
    exact .stay here hnone h

/-- Behind others, segments may be exchanged for what leads to the same. -/
theorem Follows.exchange (h : Follows k p (us ++ ss) q)
    (hss : ∀ k p, Follows k p ss q → Follows k p ts q) : Follows k p (us ++ ts) q := by
  obtain ⟨j, l, m, rfl, hm, hq⟩ := h.through
  exact hm.append (hss l m hq)

private theorem follows_cons_congr (h : ∀ k p, Follows k p ss q ↔ Follows k p ts q) :
    Follows k p (s :: ss) q ↔ Follows k p (s :: ts) q := by
  show Follows k p ([s] ++ ss) q ↔ Follows k p ([s] ++ ts) q
  exact ⟨fun hs ↦ hs.exchange fun k p ↦ (h k p).mp, fun hs ↦ hs.exchange fun k p ↦ (h k p).mpr⟩

/-- In front of others, segments lead where their meaning leads. -/
theorem follows_meaning_append (hus : us ≠ []) :
    Follows k p (ss ++ us) q ↔ Follows k p ((meaning ss).map Component.spelling ++ us) q := by
  induction ss generalizing k p with
  | nil => rfl
  | cons s ss ih =>
    cases hs : Component.ofSegment s with
    | none =>
      rw [Path.meaning_cons_of_none hs, ← ih]
      exact follows_cons_of_none hs (List.append_ne_nil_of_right_ne_nil ss hus)
    | some c =>
      rw [Path.meaning_cons_of_some hs, List.map_cons, Path.spelling_of_ofSegment hs]
      exact follows_cons_congr fun k p ↦ ih

section

variable {f g : Path} (h : Respelled f g)

include h

/-- A respelled path leads where the path leads. -/
theorem locate_of_respelled (hf : t.locate f = .ok q) : t.locate g = .ok q := by
  obtain ⟨hnul, -, hfollows⟩ := locate_eq_ok_iff.mp hf
  have hmeaning := (Path.same_iff h.isAbsolute_left h.isAbsolute_right).mp h.same
  have hnulSegments : ∀ s ∈ g.segments, 0 ∉ s := by
    rw [Path.forall_mem_segments_iff (P := (0 ∉ ·)) (by simp) (by decide), ← hmeaning,
      ← Path.forall_mem_segments_iff (P := (0 ∉ ·)) (by simp) (by decide)]
    exact fun s hs ↦ (solid_of_mem_segments hnul s hs).2
  refine locate_eq_ok_iff.mpr ⟨nul_notMem_of_segments hnulSegments, h.isAbsolute_right, ?_⟩
  obtain ⟨ss, ts, us, hfs, hgs, hus, hm⟩ := h.exists_end
  rw [hfs, follows_meaning_append hus, hm] at hfollows
  rwa [hgs, follows_meaning_append hus]

/-- What spells a file anew is a file. -/
theorem isFile_of_respelled : t.isFile f = t.isFile g := by
  rw [Bool.eq_iff_iff, isFile_iff, isFile_iff]
  constructor
  · rintro ⟨q, content, hq, hc⟩
    exact ⟨q, content, locate_of_respelled h hq, hc⟩
  · rintro ⟨q, content, hq, hc⟩
    exact ⟨q, content, locate_of_respelled h.symm hq, hc⟩

/-- What spells a directory anew is a directory. -/
theorem isDirectory_of_respelled : t.isDirectory f = t.isDirectory g := by
  rw [Bool.eq_iff_iff, isDirectory_iff, isDirectory_iff]
  constructor
  · rintro ⟨q, entries, hq, he⟩
    exact ⟨q, entries, locate_of_respelled h hq, he⟩
  · rintro ⟨q, entries, hq, he⟩
    exact ⟨q, entries, locate_of_respelled h.symm hq, he⟩

/-- What spells an existing path anew exists. -/
theorem pathExists_of_respelled : t.pathExists f = t.pathExists g := by
  rw [Bool.eq_iff_iff, pathExists_iff, pathExists_iff]
  exact ⟨fun ⟨q, hq⟩ ↦ ⟨q, locate_of_respelled h hq⟩,
    fun ⟨q, hq⟩ ↦ ⟨q, locate_of_respelled h.symm hq⟩⟩

/-- What spells a file anew is read as the same bytes. -/
theorem read_of_respelled {content : List UInt8} (hf : t.read f = .ok content) :
    t.read g = .ok content := by
  unfold read at hf ⊢
  cases hq : t.locate f with
  | error e => rw [hq] at hf; cases hf
  | ok q =>
    rw [hq] at hf
    rw [locate_of_respelled h hq]
    exact hf

end

end FileTree

end Relocation
